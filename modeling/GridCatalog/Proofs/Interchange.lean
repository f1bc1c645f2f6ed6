import Mathlib.Data.List.Perm.Basic
import GridCatalog.Proofs.Durability
import GridCatalog.Proofs.Elementwise
import GridCatalog.Proofs.JsonDirectory
import GridCatalog.Proofs.Query

/-! The two kinds of stores answer alike.

    A store on a disk simulates one in memory: the files of each kind are the rows of its table
    (`Simulates`). Every call gives the same answer on both sides and keeps the simulation
    (`run_agrees`), so a sequence of calls of any length does (`interchangeable`). Only the expired
    entries may come in another order: a directory lists its files in no particular one. -/

namespace GridCatalog

/-- A call with the stamp that it comes with. -/
structure StampedCall : Type 1 where
  answer : Type
  call : Call answer
  stamp : Stamp

/-- What a store answers. -/
def Store.answer {σ : Type} (S : Store σ) (x : σ) (c : StampedCall) : Except StoreError c.answer :=
  (S.run c.call c.stamp x).1

/-- The state of a store after calls. -/
def Store.after {σ : Type} (S : Store σ) (x : σ) (cs : List StampedCall) : σ :=
  cs.foldl (fun x c => (S.run c.call c.stamp x).2) x

/-- Two answers to a call are equal, or give the same expired entries in some order. -/
def Call.Agrees {α : Type} (c : Call α) (a b : Except StoreError α) : Prop :=
  match c with
  | .expiredEntries _ _ => ∃ es fs, a = .ok es ∧ b = .ok fs ∧ es.Perm fs
  | _ => a = b

namespace JsonDirectory
variable {s : JsonDirectory} {d : Disk} {α : Type} {f : Form α} {t : Table String α} {id : String} {x : α}

/-! ### Calls about one record -/

theorem look_target (free : s.Free d) {kind : RecordKind} (h : d.node? (s.target kind id) = none) :
    d.look (s.target kind id) = .error .missing := by
  refine Disk.look_missing ?_ h
  rw [target, List.dropLast_concat]
  exact free.clear_folder kind

namespace Mirrors

/-- The file of a stored record is reached. -/
theorem resolve (sited : s.Sited) (free : s.Free d) (h : s.Mirrors f t d) (hx : t.get? id = some x) :
    d.resolve s.base (s.file f.kind id) = .ok (s.target f.kind id) := by
  obtain ⟨safe, fits, -, -⟩ := h.stored hx
  rw [free.resolve_file sited safe fits]
  exact if_pos (List.all_eq_true.mpr (h.made (Option.isSome_of_eq_some hx)))

/-- The file of a record that is not stored is reached in vain, or not at all. -/
theorem resolve_of_none (sited : s.Sited) (free : s.Free d) (safe : isSafeId id = true) (fits : s.Fits f.kind id) :
    d.resolve s.base (s.file f.kind id) = .ok (s.target f.kind id) ∨
      d.resolve s.base (s.file f.kind id) = .error .missing := by
  rw [free.resolve_file sited safe fits]
  split
  · exact Or.inl rfl
  · exact Or.inr rfl

theorem load_eq (sited : s.Sited) (free : s.Free d) (h : s.Mirrors f t d)
    (fits : isSafeId id = true → s.Fits f.kind id) : s.load f.kind f.read id d = Memory.found id (t.get? id) := by
  unfold load
  cases hx : t.get? id with
  | some x =>
    obtain ⟨safe, -, trips, stands⟩ := h.stored hx
    rw [if_pos safe, loadAt, Disk.readAt, h.resolve sited free hx]
    simp only [Except.bind, Disk.read, Disk.look, stands]
    rw [decode, show (Json.ofBytes? (f.bytes x)).bind f.read = some x from trips]
    rfl
  | none =>
    split
    · rename_i safe
      rw [loadAt, Disk.readAt]
      rcases resolve_of_none (f := f) sited free safe (fits safe) with reached | missing
      · rw [reached]
        simp only [Except.bind, Disk.read, look_target free (h.node?_of_none hx)]
        rfl
      · rw [missing]
        rfl
    · rfl

/-- Writing the file of a record puts its row in. -/
theorem save (sited : s.Sited) (free : s.Free d) (h : s.Mirrors f t d) (safe : isSafeId id = true)
    (fits : s.Fits f.kind id) (trips : f.RoundTrips x) {β : Type} (b : β) :
    ∃ d', s.save f.kind id (f.write x) b d = (.ok b, d') ∧ s.Touches f.kind id d d' ∧
      s.Mirrors f (t.insert id x) d' := by
  obtain ⟨d₁, hd₁, nodes⟩ := free.ensureDirectoryAt sited f.kind
  have touches₁ : s.Touches f.kind id d d₁ := fun p _ => by
    rw [nodes]
    split
    · exact Or.inr ⟨‹_›, rfl⟩
    · exact Or.inl rfl
  have free₁ := touches₁.free sited free
  have made₁ : ∀ p ∈ s.stations ++ [s.folder f.kind], d₁.isDirectory p := fun p hp => by
    rw [Disk.isDirectory, nodes, if_pos hp]
    rfl
  -- No directory that is made on the way stands where the file is written.
  have noDirectory : d₁.isDirectory (s.target f.kind id) = false := by
    have outside : s.target f.kind id ∉ s.stations ++ [s.folder f.kind] := child_notMem sited
    rw [Disk.isDirectory, nodes, if_neg outside]
    cases hx : t.get? id with
    | none => simp [h.node?_of_none hx]
    | some y => simp [(h.stored hx).2.2.2]
  obtain ⟨d₂, hd₂⟩ : ∃ d₂, d₁.write (s.target f.kind id) (f.bytes x) = .ok d₂ := by
    have folder : d₁.node? (s.folder f.kind) = some .directory :=
      of_decide_eq_true (made₁ _ (List.mem_append_right _ (List.mem_singleton_self _)))
    rw [Disk.write, target, List.dropLast_concat, Disk.look, folder]
    exact ⟨_, if_neg (by rw [← target, noDirectory]; exact Bool.false_ne_true)⟩
  have written := Disk.node?_write hd₂
  have touches : s.Touches f.kind id d d₂ := fun p hp => by
    rw [written, if_neg hp]
    exact touches₁ p hp
  refine ⟨d₂, ?_, touches, h.insert sited touches safe fits trips ?_ fun p hp => ?_⟩
  · unfold JsonDirectory.save
    rw [hd₁]
    simp only [Disk.writeAt, free₁.resolve_file sited safe fits, if_pos (List.all_eq_true.mpr made₁), Except.bind]
    rw [show Text.utf8Encode (Json.indented 0 (f.write x)) = f.bytes x from rfl, hd₂]
  · rw [written, if_pos rfl]
  · rw [Disk.isDirectory, written, if_neg (Touches.target_ne sited hp)]
    exact made₁ p hp

/-- A record is replaced exactly if it is stored. -/
theorem replace (sited : s.Sited) (free : s.Free d) (h : s.Mirrors f t d)
    (fits : isSafeId id = true → s.Fits f.kind id) (trips : f.RoundTrips x) {β : Type} (b : β) :
    if (t.get? id).isSome then
      ∃ d', s.replace f.kind id (f.write x) b d = (.ok b, d') ∧ s.Touches f.kind id d d' ∧
        s.Mirrors f (t.insert id x) d'
    else s.replace f.kind id (f.write x) b d = (.error (.notFound id), d) := by
  cases hx : t.get? id with
  | some y =>
    obtain ⟨safe, fits, -, stands⟩ := h.stored hx
    have there : d.isFileAt s.base (s.file f.kind id) = true := by
      rw [Disk.isFileAt, h.resolve sited free hx]
      simp [Except.toOption, Disk.isFile, stands]
    simp only [Option.isSome_some, if_true]
    rw [JsonDirectory.replace, safe, there]
    exact h.save sited free safe fits trips b
  | none =>
    simp only [Option.isSome_none, Bool.false_eq_true, if_false]
    rw [JsonDirectory.replace, if_neg]
    rw [Bool.and_eq_true, not_and]
    intro safe there
    rcases resolve_of_none (f := f) sited free safe (fits safe) with reached | missing
    · rw [Disk.isFileAt, reached] at there
      simp [Except.toOption, Disk.isFile, h.node?_of_none hx] at there
    · rw [Disk.isFileAt, missing] at there
      cases there

/-- A record is removed exactly if it is stored. -/
theorem discard (sited : s.Sited) (free : s.Free d) (h : s.Mirrors f t d)
    (fits : isSafeId id = true → s.Fits f.kind id) :
    if (t.get? id).isSome then
      ∃ d', s.discard f.kind id d = (.ok (), d') ∧ s.Touches f.kind id d d' ∧ s.Mirrors f (t.erase id) d'
    else s.discard f.kind id d = (.error (.notFound id), d) := by
  cases hx : t.get? id with
  | some y =>
    obtain ⟨safe, -, -, stands⟩ := h.stored hx
    obtain ⟨d', hd'⟩ : ∃ d', d.remove (s.target f.kind id) = .ok d' := by
      rw [Disk.remove, Disk.look, stands]
      exact ⟨_, rfl⟩
    have nodes := Disk.node?_remove hd'
    have touches : s.Touches f.kind id d d' := fun p hp => Or.inl (by rw [nodes, if_neg hp])
    simp only [Option.isSome_some, if_true]
    refine ⟨d', ?_, touches, h.erase sited touches (by rw [nodes, if_pos rfl])⟩
    rw [JsonDirectory.discard, safe, Disk.removeAt, h.resolve sited free hx]
    simp [Except.bind, hd']
  | none =>
    simp only [Option.isSome_none, Bool.false_eq_true, if_false]
    unfold JsonDirectory.discard
    split
    · rfl
    · rename_i safe
      have safe : isSafeId id = true := by simpa using safe
      rw [Disk.removeAt]
      rcases resolve_of_none (f := f) sited free safe (fits safe) with reached | missing
      · rw [reached]
        simp only [Except.bind, Disk.remove, look_target free (h.node?_of_none hx)]
        rfl
      · rw [missing]
        rfl

end Mirrors

/-! ### Listing entries -/

/-- The form of datasets. -/
def datasetForm : Form Dataset := ⟨.dataset, Dataset.toJson, Dataset.ofJson?⟩

/-- The form of entries. -/
def entryForm : Form Entry := ⟨.entry, Entry.toJson, Entry.ofJson?⟩

namespace Mirrors
variable {es : Table String Entry}

/-- The files of entries are named by the ids of the table. -/
theorem entryNames_perm (h : s.Mirrors entryForm es d) :
    (entryNames d (s.folder .entry)).Perm (es.rows.map fun row => fileName row.1) := by
  have distinct : (es.rows.map fun row => fileName row.1).Nodup := by
    have := es.nodup.map fileName_injective
    rwa [List.map_map] at this
  refine (List.perm_ext_iff_of_nodup ((Disk.nodup_names _ _).filter _) distinct).mpr fun name => ?_
  rw [List.mem_filter, Disk.mem_names, List.mem_map]
  constructor
  · rintro ⟨hname, -⟩
    obtain ⟨id, rfl, stored⟩ := h.only hname
    obtain ⟨x, hx⟩ := Option.isSome_iff_exists.mp stored
    exact ⟨(id, x), Table.mem_rows.mpr hx, rfl⟩
  · rintro ⟨⟨id, x⟩, hrow, rfl⟩
    obtain ⟨safe, -, -, stands⟩ := h.stored (Table.mem_rows.mp hrow)
    refine ⟨?_, by rw [extension?_fileName safe]; rfl⟩
    rw [show s.folder .entry ++ [fileName id] = s.target entryForm.kind id from rfl, stands]
    rfl

theorem loadAt_row (sited : s.Sited) (free : s.Free d) (h : s.Mirrors entryForm es d) {row : String × Entry}
    (hrow : row ∈ es.rows) :
    s.loadAt Entry.ofJson? (PathText.join (s.directory .entry) (fileName row.1)) (PathText.stem (fileName row.1)) d =
      .ok row.2 := by
  have hget := Table.mem_rows.mp hrow
  obtain ⟨-, -, trips, stands⟩ := h.stored hget
  rw [loadAt, Disk.readAt, show PathText.join (s.directory .entry) (fileName row.1) = s.file entryForm.kind row.1
    from rfl, h.resolve sited free hget]
  simp only [Except.bind, Disk.read, Disk.look, stands]
  rw [decode, show (Json.ofBytes? (entryForm.bytes row.2)).bind Entry.ofJson? = some row.2 from trips]

/-- Where a directory on the way to the entries is missing there are none. -/
theorem values_eq_nil (h : s.Mirrors entryForm es d) {p : Path} (hp : p ∈ s.stations ++ [s.folder .entry])
    (missing : d.isDirectory p = false) : es.values = [] := by
  rw [Table.values, List.map_eq_nil_iff, List.eq_nil_iff_forall_not_mem]
  rintro ⟨id, x⟩ hrow
  rw [h.made (Option.isSome_of_eq_some (Table.mem_rows.mp hrow)) p hp] at missing
  cases missing

/-- The entries of the directory are those of the table, in some order. -/
theorem entries (sited : s.Sited) (free : s.Free d) (h : s.Mirrors entryForm es d) :
    ∃ xs, s.entries d = .ok xs ∧ xs.Perm es.values := by
  unfold JsonDirectory.entries
  simp only [free.resolve_directory sited]
  cases made : s.stations.all d.isDirectory with
  | false =>
    obtain ⟨p, hp, missing⟩ := List.all_eq_false.mp made
    refine ⟨[], rfl, ?_⟩
    rw [h.values_eq_nil (List.mem_append_left _ hp) (by simpa using missing)]
  | true =>
    simp only [if_true]
    cases hnode : d.node? (s.folder .entry) with
    | none =>
      have missing : d.isDirectory (s.folder .entry) = false := by simp [Disk.isDirectory, hnode]
      refine ⟨[], rfl, ?_⟩
      rw [h.values_eq_nil (List.mem_append_right _ (List.mem_singleton_self _)) missing]
    | some node =>
      have there := Disk.isDirectory_of_node? (free.folders .entry) (by rw [hnode]; rfl)
      obtain rfl : node = .directory := by
        rw [Disk.isDirectory, hnode] at there
        exact Option.some.inj (of_decide_eq_true there)
      have all : List.Forall₂ (fun name x => s.loadAt Entry.ofJson? (PathText.join (s.directory .entry) name)
          (PathText.stem name) d = .ok x) (es.rows.map fun row => fileName row.1) es.values := by
        rw [Table.values, List.forall₂_map_left_iff, List.forall₂_map_right_iff, List.forall₂_same]
        exact fun row hrow => h.loadAt_row sited free hrow
      -- The directory lists its files in an order of its own, and the loaded entries follow it.
      obtain ⟨xs, hxs, perm⟩ := List.perm_comp_forall₂ h.entryNames_perm all
      exact ⟨xs, mapM_eq_ok.mpr hxs, perm⟩

end Mirrors

/-! ### The simulation -/

/-- A store on a disk holds the datasets and entries of one in memory. -/
structure Simulates (s : JsonDirectory) (m : Memory) (d : Disk) : Prop where
  free : s.Free d
  datasets : s.Mirrors datasetForm m.datasets d
  entries : s.Mirrors entryForm m.entries d
  keyed : m.EntriesKeyed

/-- The ids of a call have files with names that are not too long, a fresh id may be the name of a file, and the
    record is read back as it was written. -/
def Suits (s : JsonDirectory) {α : Type} (c : Call α) (st : Stamp) : Prop :=
  match c with
  | .createDataset x => isSafeId st.id = true ∧ s.Fits .dataset st.id ∧ datasetForm.RoundTrips (x.stamped st)
  | .updateDataset x =>
    (isSafeId x.id = true → s.Fits .dataset x.id) ∧ datasetForm.RoundTrips (x.touched st.now)
  | .readDataset id | .deleteDataset id => isSafeId id = true → s.Fits .dataset id
  | .createEntry e => isSafeId st.id = true ∧ s.Fits .entry st.id ∧ entryForm.RoundTrips (e.stamped st)
  | .updateEntry e => (isSafeId e.id = true → s.Fits .entry e.id) ∧ entryForm.RoundTrips (e.touched st.now)
  | .readEntry id | .deleteEntry id => isSafeId id = true → s.Fits .entry id
  | .listEntries _ | .expiredEntries _ _ => True

variable {m : Memory} {st : Stamp}

namespace Simulates

theorem withDatasets (sited : s.Sited) (h : s.Simulates m d) {d' : Disk} {ds : Table String Dataset}
    (touches : s.Touches .dataset id d d') (datasets : s.Mirrors datasetForm ds d') :
    s.Simulates { m with datasets := ds } d' :=
  ⟨touches.free sited h.free, datasets, h.entries.of_other sited touches (by decide), h.keyed⟩

theorem withEntries (sited : s.Sited) (h : s.Simulates m d) {d' : Disk} {es : Table String Entry}
    (touches : s.Touches .entry id d d') (entries : s.Mirrors entryForm es d')
    (keyed : ∀ {id e}, es.get? id = some e → e.id = id) : s.Simulates { m with entries := es } d' :=
  ⟨touches.free sited h.free, h.datasets.of_other sited touches (by decide), entries, keyed⟩

theorem keyed_insert (h : s.Simulates m d) (e : Entry) {id : String} {x : Entry}
    (hx : (m.entries.insert e.id e).get? id = some x) : x.id = id := by
  rw [Table.get?_insert] at hx
  split at hx
  · obtain rfl := Option.some.inj hx
    exact (‹id = _›).symm
  · exact h.keyed hx

end Simulates

/-- A call about a record that has to be stored does the same on both sides, or fails on both. -/
theorem agrees_of_stored {c : Call α} (h : s.Simulates m d) {P : Prop} [Decidable P] {a : α} {e : StoreError}
    {m' : Memory} {Q : Disk → Prop} (equal : ∀ r, c.Agrees r r)
    (memory : Memory.run c st m = if P then (.ok a, m') else (.error e, m))
    (disk : if P then ∃ d', s.run c st d = (.ok a, d') ∧ Q d' else s.run c st d = (.error e, d))
    (keeps : ∀ d', Q d' → s.Simulates m' d') :
    c.Agrees (Memory.run c st m).1 (s.run c st d).1 ∧ s.Simulates (Memory.run c st m).2 (s.run c st d).2 := by
  by_cases there : P
  · rw [if_pos there] at memory disk
    obtain ⟨d', disk, kept⟩ := disk
    rw [memory, disk]
    exact ⟨equal _, keeps d' kept⟩
  · rw [if_neg there] at memory disk
    rw [memory, disk]
    exact ⟨equal _, h⟩

/-- Every call is answered alike on both sides and keeps the simulation. -/
theorem run_agrees (sited : s.Sited) (h : s.Simulates m d) (c : Call α) (suits : s.Suits c st) :
    c.Agrees (Memory.run c st m).1 (s.run c st d).1 ∧ s.Simulates (Memory.run c st m).2 (s.run c st d).2 := by
  cases c with
  | createDataset x =>
    obtain ⟨safe, fits, trips⟩ := suits
    obtain ⟨d', hd', touches, datasets⟩ := h.datasets.save sited h.free safe fits trips (x.stamped st)
    have hd' : s.run (.createDataset x) st d = (.ok (x.stamped st), d') := (if_pos safe).trans hd'
    rw [hd']
    exact ⟨rfl, h.withDatasets sited touches datasets⟩
  | createEntry e =>
    obtain ⟨safe, fits, trips⟩ := suits
    obtain ⟨d', hd', touches, entries⟩ := h.entries.save sited h.free safe fits trips (e.stamped st)
    have hd' : s.run (.createEntry e) st d = (.ok (e.stamped st), d') := (if_pos safe).trans hd'
    rw [hd']
    exact ⟨rfl, h.withEntries sited touches entries (h.keyed_insert (e.stamped st))⟩
  | readDataset id => exact ⟨(h.datasets.load_eq sited h.free suits).symm, h⟩
  | readEntry id => exact ⟨(h.entries.load_eq sited h.free suits).symm, h⟩
  | updateDataset x =>
    have replaced := h.datasets.replace sited h.free suits.1 suits.2 (x.touched st.now)
    exact agrees_of_stored h (fun _ => rfl) rfl replaced fun _ ⟨touches, datasets⟩ =>
      h.withDatasets sited touches datasets
  | updateEntry e =>
    have replaced := h.entries.replace sited h.free suits.1 suits.2 (e.touched st.now)
    exact agrees_of_stored h (fun _ => rfl) rfl replaced fun _ ⟨touches, entries⟩ =>
      h.withEntries sited touches entries (h.keyed_insert (e.touched st.now))
  | deleteDataset id =>
    have discarded := h.datasets.discard sited h.free suits
    exact agrees_of_stored h (fun _ => rfl) rfl discarded fun _ ⟨touches, datasets⟩ =>
      h.withDatasets sited touches datasets
  | deleteEntry id =>
    have discarded := h.entries.discard sited h.free suits
    exact agrees_of_stored h (fun _ => rfl) rfl discarded fun _ ⟨touches, entries⟩ =>
      h.withEntries sited touches entries fun hx => h.keyed (Memory.withoutEntry_inv hx).2
  | listEntries q =>
    obtain ⟨es, hes, perm⟩ := h.entries.entries sited h.free
    have same : q.page m.entries.values = q.page es := Query.page_perm q perm.symm (Memory.EntriesKeyed.nodup h.keyed)
    have hd : s.run (.listEntries q) st d = (.ok (q.page es), d) := by
      rw [run, hes]
      rfl
    rw [hd]
    exact ⟨congrArg Except.ok same, h⟩
  | expiredEntries r now =>
    obtain ⟨es, hes, perm⟩ := h.entries.entries sited h.free
    have hd : s.run (.expiredEntries r now) st d = (.ok (es.filter fun e => r.isExpired e now), d) := by
      rw [run, hes]
      rfl
    rw [hd]
    exact ⟨⟨_, _, rfl, rfl, (perm.filter _).symm⟩, h⟩

theorem after_simulates (sited : s.Sited) (h : s.Simulates m d) {cs : List StampedCall}
    (suits : ∀ c ∈ cs, s.Suits c.call c.stamp) :
    s.Simulates (Memory.store.after m cs) (s.store.after d cs) := by
  induction cs generalizing m d with
  | nil => exact h
  | cons c cs ih =>
    have first := (run_agrees sited h c.call (suits c List.mem_cons_self)).2
    exact ih first fun c' hc' => suits c' (List.mem_cons_of_mem _ hc')

/-! ### From a missing directory on -/

/-- The store starts where it can be made, and nothing stands in its directories, as when they or all that they lie
    in are missing. -/
structure Vacant (s : JsonDirectory) (d : Disk) : Prop where
  start : d.isDirectory s.origin
  clear : ∀ p ∈ s.stations, d.Clear p
  empty (kind : RecordKind) : ∀ p, s.folder kind <+: p → d.node? p = none

theorem Vacant.mirrors (h : s.Vacant d) (f : Form α) : s.Mirrors f Table.empty d where
  stored hx := by cases hx
  only there := by
    rw [h.empty _ _ (List.prefix_append _ _)] at there
    cases there
  made hx := by cases hx

theorem Vacant.simulates (h : s.Vacant d) : s.Simulates Memory.empty d where
  free := ⟨h.start, h.clear, fun kind => by rw [Disk.isFile, h.empty kind _ (List.prefix_refl _)]⟩
  datasets := h.mirrors datasetForm
  entries := h.mirrors entryForm
  keyed hx := by cases hx

/-- Without a name that goes up the way leads through nothing but the directories above the store. -/
theorem Sited.of_straight (written : ∀ kind, PathText.fault? (s.directory kind) = none)
    (short : ∀ name ∈ s.way, PathText.isTooLong name = false) (straight : ".." ∉ s.way) : s.Sited where
  written := written
  short := short
  apart p hp kind inside := by
    have := (inside.trans (Disk.stations_prefix straight p hp)).length_le
    rw [folder, List.length_append] at this
    exact absurd this (Nat.not_succ_le_self _)

/-- From a missing directory and from empty tables on, all calls are answered alike; the only error is that a record
    is not found. -/
theorem interchangeable (sited : s.Sited) (vacant : s.Vacant d) {cs : List StampedCall}
    (suits : ∀ c ∈ cs, s.Suits c.call c.stamp) {c : StampedCall} (suit : s.Suits c.call c.stamp) :
    c.call.Agrees (Memory.store.answer (Memory.store.after Memory.empty cs) c)
      (s.store.answer (s.store.after d cs) c) ∧
    ∀ e, Memory.store.answer (Memory.store.after Memory.empty cs) c = .error e → e.isNotFound := by
  have simulates := after_simulates sited vacant.simulates suits
  refine ⟨(run_agrees sited simulates c.call suit).1, fun e he => ?_⟩
  exact Memory.isNotFound_of_error he

/-- An entry is created below a missing directory; an id that leads to it from elsewhere names nothing. -/
theorem interchangeable_towns :
    let s : JsonDirectory := ⟨[], "store"⟩
    let x := Dataset.new "towns" "me" [.atPosition "town" 0 .texts] [[.texts ["Rome"]], [.texts []]]
    let e := Entry.preview "" x .uploadedFile "towns.csv"
    let cs : List StampedCall :=
      [⟨_, .createEntry e, ⟨"e1", default⟩⟩, ⟨_, .deleteDataset "../metadata/e1", ⟨"", default⟩⟩]
    let c : StampedCall := ⟨_, .listEntries { Query.default with isTemporary := some true }, ⟨"", default⟩⟩
    s.Sited ∧ s.Vacant Disk.empty ∧ (∀ c ∈ cs, s.Suits c.call c.stamp) ∧
      s.store.answer (s.store.after Disk.empty cs) c = .ok [e.stamped ⟨"e1", default⟩] := by
  intro s x e cs c
  have sited : s.Sited := .of_straight (fun kind => by cases kind <;> decide) (by decide) (by decide)
  have noFile (p : Path) : Disk.empty.isFile p = false := by
    rw [Disk.isFile, Disk.node?]
    split_ifs <;> rfl
  have vacant : s.Vacant Disk.empty := by
    refine ⟨by decide +kernel, fun p _ q _ => noFile q, fun kind p inside => ?_⟩
    have nonempty : p ≠ [] := by
      rintro rfl
      have := inside.length_le
      simp [folder] at this
    rw [Disk.node?, if_neg nonempty]
    rfl
  have fits : s.Fits .entry "e1" := ⟨by decide +kernel, by decide +kernel⟩
  have suits : ∀ c ∈ cs, s.Suits c.call c.stamp := by
    intro c hc
    simp only [cs, List.mem_cons, List.not_mem_nil, or_false] at hc
    rcases hc with rfl | rfl
    · exact ⟨by decide, fits, by unfold Form.RoundTrips; decide +kernel⟩
    · exact fun safe => absurd safe (by decide)
  have agrees := (interchangeable sited vacant suits (c := c) trivial).1
  refine ⟨sited, vacant, suits, Eq.trans (Eq.symm agrees) (World.ok_of_toOption ?_)⟩
  decide +kernel

end JsonDirectory
end GridCatalog
