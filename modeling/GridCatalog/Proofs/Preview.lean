import GridCatalog.Proofs.References

/-! Entries as previews of their datasets.

    An entry and its dataset are stored by two calls, so an approval that fails between them leaves
    an entry that shows the dataset as it was. That is the only way in which they can come to
    disagree (`previews_mirror`). -/

namespace GridCatalog

/-- What an entry shows is what its dataset holds. -/
structure Entry.Mirrors (e : Entry) (d : Dataset) : Prop where
  name : e.name = d.name
  userId : e.userId = d.userId
  header : e.header = d.header
  size : e.size = d.body.length
  examples : e.examples = d.body.take (min 3 e.size)

theorem Entry.preview_mirrors (id : String) (d : Dataset) (provenance : Provenance) (sourceId : String) :
    (Entry.preview id d provenance sourceId).Mirrors d where
  name := rfl
  userId := rfl
  header := rfl
  size := rfl
  examples := List.take_eq_take_min

namespace Entry.Mirrors
variable {e : Entry} {d : Dataset}

theorem stamped (h : e.Mirrors d) (s : Stamp) : (e.stamped s).Mirrors d :=
  ⟨h.name, h.userId, h.header, h.size, h.examples⟩

theorem archived (h : e.Mirrors d) (t t' : Instant) : ((e.archivedAt t).touched t').Mirrors d :=
  ⟨h.name, h.userId, h.header, h.size, h.examples⟩

theorem approved (e : Entry) (d : Dataset) (t t' : Instant) :
    ((Service.approvedEntry e d).touched t').Mirrors (d.touched t) :=
  have h := preview_mirrors e.id d e.provenance e.sourceId
  ⟨h.name, h.userId, h.header, h.size, h.examples⟩

end Entry.Mirrors

namespace Memory

/-- All entries show what their datasets hold. -/
structure Mirrored (m : Memory) : Prop where
  mirrors : ∀ {id e d}, m.entries.get? id = some e → m.datasets.get? e.datasetId = some d → e.Mirrors d

namespace Mirrored
variable {m : Memory} {d : Dataset} {e : Entry}

theorem empty : Memory.empty.Mirrored where
  mirrors h := by cases h

theorem insertDataset (h : m.Mirrored) (unreferred : ∀ {i f}, m.entries.get? i = some f → f.datasetId ≠ d.id) :
    (m.insertDataset d).Mirrored where
  mirrors hf hx := by
    rcases insertDataset_inv hx with ⟨heq, -⟩ | ⟨-, hx⟩
    · exact absurd heq (unreferred hf)
    · exact h.mirrors hf hx

theorem insertEntry (h : m.Mirrored) (mirrors : ∀ {x}, m.datasets.get? e.datasetId = some x → e.Mirrors x) :
    (m.insertEntry e).Mirrored where
  mirrors hf hx := by
    rcases insertEntry_inv hf with ⟨-, rfl⟩ | ⟨-, hf⟩
    · exact mirrors hx
    · exact h.mirrors hf hx

/-- An entry and its dataset may be written together if no other entry refers to the dataset. -/
theorem insertBoth (h : m.Mirrored) (mirrors : e.Mirrors d) (own : e.datasetId = d.id)
    (others : ∀ {i f}, i ≠ e.id → m.entries.get? i = some f → f.datasetId ≠ d.id) :
    ((m.insertDataset d).insertEntry e).Mirrored where
  mirrors hf hx := by
    rcases insertEntry_inv hf with ⟨-, rfl⟩ | ⟨hne, hf⟩ <;> rcases insertDataset_inv hx with ⟨heq, rfl⟩ | ⟨hne', hx⟩
    · exact mirrors
    · exact absurd own hne'
    · exact absurd heq (others hne hf)
    · exact h.mirrors hf hx

theorem withoutEntry (h : m.Mirrored) (id : String) : (m.withoutEntry id).Mirrored where
  mirrors hf hx := h.mirrors (withoutEntry_inv hf).2 hx

theorem withoutDataset (h : m.Mirrored) (id : String) : (m.withoutDataset id).Mirrored where
  mirrors hf hx := h.mirrors hf (withoutDataset_inv hx).2

end Mirrored

end Memory

/-! ### Runs -/

/-- An approval has changed the dataset but could not change the entry. -/
def Turn.endsHalfway (t : Turn) (o : Except Failure Answer) : Bool :=
  match t.request, o with
  | .approve _ _, .error f => f.reason = "metadata-write"
  | _, _ => false

namespace World
variable {u : Surroundings} {w w' : World Memory}

/-- The references are right, and the entries show what their datasets hold. -/
structure InStep (u : Surroundings) (w : World Memory) : Prop where
  sound : Sound u w
  mirrored : w.store.Mirrored

namespace InStep

theorem start (u : Surroundings) : InStep u (World.start Memory.empty) := ⟨.start u, .empty⟩

theorem event (hu : Function.Injective u.freshId) (h : InStep u w) {t : Turn} {o : Except Failure Answer}
    (whole : t.endsHalfway o = false) (he : Event u t.request o w w') : InStep u w' := by
  refine ⟨h.sound.event hu he, ?_⟩
  have refs := h.sound.refs
  unfold Turn.endsHalfway at whole
  generalize t.request = q at he whole
  cases he with
  | quiet _ _ store => exact store ▸ h.mirrored
  | datasetOnly built first _ store =>
    have new := h.sound.issued.fresh_dataset hu first
    exact store ▸ h.mirrored.insertDataset fun hf => refs.unreferred new hf
  | @created _ _ n k _ _ _ _ _ _ d' _ first _ _ dataset store =>
    have new : w.store.datasets.get? d'.id = none := by
      rw [dataset]
      exact h.sound.issued.fresh_dataset hu first
    have mirrors := Entry.preview_mirrors "" d'
    exact store ▸ h.mirrored.insertBoth ((mirrors _ _).stamped _) rfl fun _ hf => refs.unreferred new hf
  | reshaped =>
    exact absurd rfl (of_decide_eq_false whole)
  | @approved id _ _ _ _ _ e _ d entry dataset _ written store =>
    have same : d.id = e.datasetId := refs.datasetKeyed dataset
    obtain rfl : e.id = id := refs.entryKeyed entry
    rw [store, written]
    refine h.mirrored.insertBoth (.approved e _ _ _) rfl fun {i f} hne hf heq => ?_
    exact hne (refs.unshared hf entry (heq.trans same))
  | archived entry _ written store =>
    rw [store, written]
    exact h.mirrored.insertEntry fun hx => (h.mirrored.mirrors entry hx).archived _ _
  | entryRemoved _ _ _ store => exact store ▸ h.mirrored.withoutEntry _
  | removed _ _ _ store => exact store ▸ (h.mirrored.withoutEntry _).withoutDataset _

theorem turn (hu : Function.Injective u.freshId) (h : InStep u w) {t : Turn}
    (whole : t.endsHalfway (t.serve u w).1 = false) : InStep u (t.serve u w).2 :=
  t.serve_induct h.sound.refs.entryKeyed (fun _ _ he hv => hv.event hu whole he) h

theorem after (hu : Function.Injective u.freshId) {ts : List Turn} (h : InStep u w)
    (whole : ∀ x ∈ outcomes u w ts, x.1.endsHalfway x.2 = false) : InStep u (w.after u ts) := by
  induction ts generalizing w with
  | nil => exact h
  | cons t ts ih =>
    have first : InStep u (t.serve u w).2 := h.turn hu (whole _ List.mem_cons_self)
    exact ih first fun x hx => whole x (List.mem_cons_of_mem _ hx)

end InStep

/-- As long as no approval ends halfway, every entry shows what its dataset holds, whichever other calls of the
    store fail. -/
theorem previews_mirror (hu : Function.Injective u.freshId) {turns : List Turn}
    (whole : ∀ x ∈ outcomes u (World.start Memory.empty) turns, x.1.endsHalfway x.2 = false) {id : String} {e : Entry}
    (entry : (reached u turns).store.entries.get? id = some e) :
    ∃ d, (reached u turns).store.datasets.get? e.datasetId = some d ∧ e.Mirrors d := by
  have inStep : InStep u (reached u turns) := (InStep.start u).after hu whole
  obtain ⟨d, hd⟩ := inStep.sound.refs.referred entry
  exact ⟨d, hd, inStep.mirrored.mirrors entry hd⟩

/-- An entry that was not created and a dataset that could not be changed leave the others in step. -/
theorem previews_mirror_retried :
    let approve := .ofRequest (.approve "iiii" ⟨"towns", [⟨1, 0, "town", 0, false⟩]⟩)
    let turns := [.ofRequest (.ingest "list"), .ofRequest (.ingest "list"), approve, approve,
      .ofRequest (.archive "iiii")]
    (∀ x ∈ outcomes (.counting [1, 6]) (World.start Memory.empty) turns, x.1.endsHalfway x.2 = false) ∧
    ∃ e d, (reached (.counting [1, 6]) turns).store.entries.get? "iiii" = some e ∧
      (reached (.counting [1, 6]) turns).store.datasets.get? e.datasetId = some d ∧ e.Mirrors d := by
  intro approve turns
  have whole : ∀ x ∈ outcomes (.counting [1, 6]) (World.start Memory.empty) turns, x.1.endsHalfway x.2 = false := by
    decide +kernel
  obtain ⟨e, he⟩ : ∃ e, (reached (.counting [1, 6]) turns).store.entries.get? "iiii" = some e :=
    Option.isSome_iff_exists.mp (by decide +kernel)
  obtain ⟨d, hd, mirrors⟩ := previews_mirror (Surroundings.counting_injective _) whole he
  exact ⟨whole, e, d, he, hd, mirrors⟩

end World

end GridCatalog
