import GridCatalog.Proofs.Disk

/-! What operations on a disk depend on, and what they leave alone.

    Following a written path asks at each station whether a file or a directory stands there, and above it if nothing
    does; what is in the files does not matter (`resolve_congr`). Wherever it leads, that is where the text says
    (`resolve_eq_normalize`). Making a way puts directories where nothing stood and changes nothing else
    (`makeWay_frame`). -/

namespace GridCatalog
namespace Disk
variable {d d' e e' : Disk} {base p q : Path} {name : String} {names : List String} {text : String}
  {bytes : List UInt8}

/-! ### Disks that look alike -/

/-- Nothing stands at either place, or a directory at both, or some file at both. -/
inductive LooksLike : Option Node → Option Node → Prop
  | missing : LooksLike none none
  | directory : LooksLike (some .directory) (some .directory)
  | file (bytes bytes' : List UInt8) : LooksLike (some (.file bytes)) (some (.file bytes'))

theorem LooksLike.refl (n : Option Node) : LooksLike n n := by
  rcases n with _ | ⟨bytes | _⟩
  · exact .missing
  · exact .file bytes bytes
  · exact .directory

/-- The disks look alike at a path and above it. -/
def AlikeTo (d d' : Disk) (p : Path) : Prop := ∀ q, q <+: p → LooksLike (d.node? q) (d'.node? q)

theorem AlikeTo.here (h : AlikeTo d d' p) : LooksLike (d.node? p) (d'.node? p) := h p (List.prefix_refl p)

theorem AlikeTo.above (h : AlikeTo d d' p) : AlikeTo d d' p.dropLast :=
  fun q hq => h q (hq.trans (List.dropLast_prefix p))

theorem isFile_congr (h : LooksLike (d.node? p) (d'.node? p)) : d.isFile p = d'.isFile p := by
  unfold isFile
  generalize d.node? p = n at h ⊢
  generalize d'.node? p = n' at h ⊢
  cases h <;> rfl

theorem isDirectory_congr (h : LooksLike (d.node? p) (d'.node? p)) : d.isDirectory p = d'.isDirectory p := by
  unfold isDirectory
  generalize d.node? p = n at h ⊢
  generalize d'.node? p = n' at h ⊢
  cases h <;> simp

theorem any_isFile_congr (h : AlikeTo d d' p) : (beginnings p).any d.isFile = (beginnings p).any d'.isFile := by
  rw [Bool.eq_iff_iff, List.any_eq_true, List.any_eq_true]
  have same : ∀ q ∈ beginnings p, d.isFile q = d'.isFile q := fun q hq => by
    obtain ⟨n, -, rfl⟩ := List.mem_map.mp hq
    exact isFile_congr (h _ (List.take_prefix _ _))
  constructor <;> rintro ⟨q, hq, there⟩
  · exact ⟨q, hq, same q hq ▸ there⟩
  · exact ⟨q, hq, (same q hq).symm ▸ there⟩

theorem look_congr (same : d.node? p = d'.node? p) (above : AlikeTo d d' p.dropLast) : d.look p = d'.look p := by
  rw [look, look, same, any_isFile_congr above]

/-- What has been done to two disks is the same wherever they looked alike. -/
def SameEffect (d d' e e' : Disk) : Prop := ∀ p, LooksLike (d.node? p) (d'.node? p) →
  LooksLike (e.node? p) (e'.node? p) ∧ (d.node? p = d'.node? p → e.node? p = e'.node? p)

theorem SameEffect.refl (d d' : Disk) : SameEffect d d' d d' := fun _ hp => ⟨hp, id⟩

theorem SameEffect.trans {f f' : Disk} (h : SameEffect d d' e e') (h' : SameEffect e e' f f') :
    SameEffect d d' f f' := by
  intro p hp
  obtain ⟨looks, same⟩ := h p hp
  obtain ⟨looks', same'⟩ := h' p looks
  exact ⟨looks', same' ∘ same⟩

/-! ### Following a way -/

theorem enter_congr (h : AlikeTo d d' p) (name : String) : d.enter p name = d'.enter p name := by
  unfold enter look
  rw [any_isFile_congr h.above]
  have here := h.here
  generalize d.node? p = n at here ⊢
  generalize d'.node? p = n' at here ⊢
  cases here <;> rfl

theorem enter_eq_follow (h : d.enter p name = .ok q) : q = follow p name := by
  unfold enter at h
  split at h
  · split at h
    · cases h
    · exact (Except.ok.inj h).symm
  · cases h
  · cases h

/-- Where a way leads does not depend on the disk, only whether it leads there. -/
theorem foldlM_enter_eq_foldl (h : names.foldlM d.enter p = .ok q) : q = names.foldl follow p := by
  induction names generalizing p with
  | nil => exact (Except.ok.inj h).symm
  | cons first rest ih =>
    rw [List.foldlM_cons] at h
    rcases hfirst : d.enter p first with fault | r <;> rw [hfirst] at h
    · cases h
    · obtain rfl := enter_eq_follow hfirst
      exact ih h

theorem foldlM_enter_congr (h : ∀ q ∈ stations p names, AlikeTo d d' q) (name : String) :
    (names ++ [name]).foldlM d.enter p = (names ++ [name]).foldlM d'.enter p := by
  induction names generalizing p with
  | nil =>
    rw [List.nil_append, List.foldlM_cons, List.foldlM_cons, enter_congr (h p List.mem_cons_self)]
    rfl
  | cons first rest ih =>
    rw [List.cons_append, List.foldlM_cons, List.foldlM_cons, ← enter_congr (h p List.mem_cons_self)]
    rcases hfirst : d.enter p first with fault | r
    · rfl
    · obtain rfl := enter_eq_follow hfirst
      exact ih fun q hq => h q (List.mem_cons_of_mem _ hq)

/-- A written path leads where its text says, if it leads anywhere. -/
theorem resolve_eq_normalize (h : d.resolve base text = .ok p) : p = normalize base text := by
  unfold resolve at h
  split at h
  · cases h
  · exact foldlM_enter_eq_foldl h

/-- Whether a written path leads to its last name depends on the stations before it. -/
theorem resolve_congr (split : PathText.names text = names ++ [name])
    (h : ∀ q ∈ stations (start base text) names, AlikeTo d d' q) : d.resolve base text = d'.resolve base text := by
  rw [resolve, resolve, split, foldlM_enter_congr h name]

/-! ### Making a way -/

/-- Making a way puts directories at stations where nothing stood. -/
theorem makeWay_frame (d : Disk) (p : Path) (made : Bool) (names : List String) (q : Path) :
    (d.makeWay p made names).2.node? q = d.node? q ∨
      q ∈ stations p names ∧ d.node? q = none ∧ (d.makeWay p made names).2.node? q = some .directory := by
  induction names generalizing d p made with
  | nil => exact Or.inl rfl
  | cons name rest ih =>
    rw [makeWay]
    split
    · exact Or.inl rfl
    split
    · exact (ih d _ made).imp_right fun new => ⟨List.mem_cons_of_mem _ new.1, new.2⟩
    · exact Or.inl rfl
    · rename_i missing
      have first := node?_makeDirectory missing q
      by_cases hq : q = follow p name
      · subst hq
        rw [if_pos rfl] at first
        refine Or.inr ⟨List.mem_cons_of_mem _ (mem_stations_self _ _), missing, ?_⟩
        rcases ih (d.makeDirectory (follow p name)) (follow p name) true with same | ⟨-, none, -⟩
        · rw [same, first]
        · rw [first] at none
          cases none
      · rw [if_neg hq] at first
        rw [← first]
        exact (ih _ _ true).imp_right fun new => ⟨List.mem_cons_of_mem _ new.1, new.2⟩

/-- Making a way depends on what stands at the stations, and does the same to disks that look alike there. -/
theorem makeWay_congr (made : Bool) (h : ∀ q ∈ stations p names, LooksLike (d.node? q) (d'.node? q)) :
    (d.makeWay p made names).1 = (d'.makeWay p made names).1 ∧
      SameEffect d d' (d.makeWay p made names).2 (d'.makeWay p made names).2 := by
  induction names generalizing d d' p made with
  | nil => exact ⟨rfl, .refl d d'⟩
  | cons name rest ih =>
    have next := h (follow p name) (List.mem_cons_of_mem _ (mem_stations_self _ _))
    have later : ∀ q ∈ stations (follow p name) rest, LooksLike (d.node? q) (d'.node? q) :=
      fun q hq => h q (List.mem_cons_of_mem _ hq)
    rw [makeWay, makeWay]
    split
    · exact ⟨rfl, .refl d d'⟩
    generalize hn : d.node? (follow p name) = n at next
    generalize hn' : d'.node? (follow p name) = n' at next
    cases next with
    | directory => exact ih made later
    | file => exact ⟨rfl, .refl d d'⟩
    | missing =>
      have first : SameEffect d d' (d.makeDirectory (follow p name)) (d'.makeDirectory (follow p name)) := by
        intro q hq
        rw [node?_makeDirectory hn, node?_makeDirectory hn']
        split
        · exact ⟨.directory, fun _ => rfl⟩
        · exact ⟨hq, id⟩
      obtain ⟨answer, rest⟩ := ih true fun q hq => (first q (later q hq)).1
      exact ⟨answer, first.trans rest⟩

/-! ### Files -/

theorem isFileAt_congr (same : d.resolve base text = d'.resolve base text)
    (h : LooksLike (d.node? (normalize base text)) (d'.node? (normalize base text))) :
    d.isFileAt base text = d'.isFileAt base text := by
  unfold isFileAt
  rw [← same]
  rcases reached : d.resolve base text with fault | p
  · rfl
  · obtain rfl := resolve_eq_normalize reached
    exact isFile_congr h

theorem read_congr (same : d.node? p = d'.node? p) (above : AlikeTo d d' p.dropLast) : d.read p = d'.read p := by
  rw [read, read, look_congr same above]

/-- A file is written into both of two disks that look alike, or into neither of them for the same reason. -/
theorem write_congr (same : LooksLike (d.node? p) (d'.node? p)) (above : AlikeTo d d' p.dropLast)
    (bytes : List UInt8) :
    (∃ fault, d.write p bytes = .error fault ∧ d'.write p bytes = .error fault) ∨
      ∃ e e', d.write p bytes = .ok e ∧ d'.write p bytes = .ok e' := by
  unfold write look
  rw [any_isFile_congr above.above, isDirectory_congr same]
  have folder := above.here
  generalize d.node? p.dropLast = n at folder ⊢
  generalize d'.node? p.dropLast = n' at folder ⊢
  cases folder with
  | missing =>
    dsimp only
    left
    cases (beginnings p.dropLast.dropLast).any d'.isFile <;> exact ⟨_, rfl, rfl⟩
  | file => exact Or.inl ⟨_, rfl, rfl⟩
  | directory =>
    dsimp only
    by_cases there : d'.isDirectory p
    · rw [if_pos there, if_pos there]
      exact Or.inl ⟨_, rfl, rfl⟩
    · rw [if_neg there, if_neg there]
      exact Or.inr ⟨_, _, rfl, rfl⟩

theorem remove_congr (same : d.node? p = d'.node? p) (above : AlikeTo d d' p.dropLast) :
    (∃ fault, d.remove p = .error fault ∧ d'.remove p = .error fault) ∨
      ∃ e e', d.remove p = .ok e ∧ d'.remove p = .ok e' := by
  unfold remove
  rw [look_congr same above]
  split
  · exact Or.inr ⟨_, _, rfl, rfl⟩
  · exact Or.inl ⟨_, rfl, rfl⟩
  · exact Or.inl ⟨_, rfl, rfl⟩

end Disk
end GridCatalog
