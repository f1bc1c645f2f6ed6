import GridCatalog.Proofs.DiskFrame
import GridCatalog.Proofs.Elementwise

/-! Files that are written at written paths and read again.

    A written path leads somewhere exactly if all stations on its way are directories (`resolve_eq_ok`). Writing a file
    leaves these alone, so what has been written is read again (`readAt_of_writeAt`). The written path of the directory
    that a file lies in passes through the same stations as the way to the file (`parent_inv`). -/

namespace GridCatalog

/-! ### The directory that a file lies in -/

namespace PathText
variable {text name : String} {front : List String}

/-- A name that stays where it is. -/
def IsIdle (name : String) : Prop := name = "" ∨ name = "."

theorem names_ne_nil (text : String) : names text ≠ [] := by simp [names, Text.pieces_ne_nil]

theorem pieces_append_flatMap {parts : List (List Char)} (whole : ∀ p ∈ parts, '/' ∉ p) (s : List Char) :
    Text.pieces '/' (s ++ parts.flatMap ('/' :: ·)) = Text.pieces '/' s ++ parts := by
  induction parts generalizing s with
  | nil => simp
  | cons part parts ih =>
    obtain ⟨first, rest⟩ := List.forall_mem_cons.mp whole
    rw [List.flatMap_cons, List.cons_append, Text.pieces_append, ih rest, Text.pieces_of_notMem first,
      List.singleton_append]

/-- What is taken from the end of a path are names that stay where they are. -/
theorem withoutEnd_inv (s : List Char) : ∃ idle : List (List Char), (∀ n ∈ idle, n = [] ∨ n = ['.']) ∧
    s.reverse = (withoutEnd s).reverse ++ idle.flatMap ('/' :: ·) := by
  fun_induction withoutEnd s with
  | case1 rest ih =>
    obtain ⟨idle, stay, split⟩ := ih
    refine ⟨idle ++ [[]], ?_, by simp [split]⟩
    simpa [or_imp, forall_and] using stay
  | case2 rest ih =>
    obtain ⟨idle, stay, split⟩ := ih
    refine ⟨idle ++ [['.']], ?_, by simp [split]⟩
    simpa [or_imp, forall_and] using stay
  | case3 rest => exact ⟨[], by simp, by simp⟩

theorem withoutEnd_eq_self {s rest : List Char} (whole : '/' ∉ s) (moves : s ≠ [] ∧ s ≠ ['.']) :
    withoutEnd (s ++ rest) = s ++ rest := by
  rcases s with _ | ⟨c, _ | ⟨c', s⟩⟩
  · exact absurd rfl moves.1
  · unfold withoutEnd
    split
    · simp_all
    · simp_all
    · rfl
  · unfold withoutEnd
    split
    · simp_all
    · simp_all
    · rfl

/-- The last name, which comes first in a reversed path, is dropped with what stays in front of it. -/
theorem parent_of_reverse {last rest : List Char} (cut : text.toList.reverse = last ++ rest) (whole : '/' ∉ last)
    (proper : ¬IsIdle (String.ofList last.reverse)) :
    parent text = String.ofList (withoutEnd (rest.dropWhile (· ≠ '/'))).reverse := by
  have moves : last ≠ [] ∧ last ≠ ['.'] := by
    constructor <;> rintro rfl
    · exact proper (.inl rfl)
    · exact proper (.inr rfl)
  have dropped : ∀ c ∈ last, decide (c ≠ '/') = true := by
    intro c hc
    refine decide_eq_true ?_
    rintro rfl
    exact whole hc
  rw [parent, cut, withoutEnd_eq_self whole moves, List.dropWhile_append_of_pos dropped]

/-- The way to a file leads through the stations of the directory that it lies in, and stays there. -/
theorem parent_inv (split : names text = front ++ [name]) (proper : ¬IsIdle name) :
    (front = [] ∧ parent text = "") ∨
      ∃ idle, (∀ n ∈ idle, IsIdle n) ∧ front = names (parent text) ++ idle ∧
        ∃ rest, text.toList = (parent text).toList ++ '/' :: rest := by
  by_cases slash : '/' ∈ text.toList
  · right
    obtain ⟨last, rest, cut, whole⟩ := List.eq_append_cons_of_mem (List.mem_reverse.mpr slash)
    have forward : text.toList = rest.reverse ++ '/' :: last.reverse := by
      rw [← List.reverse_reverse text.toList, cut]
      simp
    have named : names text = (Text.pieces '/' rest.reverse).map String.ofList ++ [String.ofList last.reverse] := by
      rw [names, forward, Text.pieces_append, Text.pieces_of_notMem fun h => whole (List.mem_reverse.mp h)]
      simp
    obtain ⟨rfl, hname⟩ := List.append_inj' (split.symm.trans named) rfl
    obtain rfl := List.singleton_inj.mp hname
    obtain ⟨idle, stay, hrest⟩ := withoutEnd_inv rest
    have parent_eq : (parent text).toList = (withoutEnd rest).reverse := by
      rw [parent_of_reverse cut whole proper, String.toList_ofList]
      rfl
    refine ⟨idle.map String.ofList, ?_, ?_, ?_⟩
    · intro n hn
      obtain ⟨part, hpart, rfl⟩ := List.mem_map.mp hn
      rcases stay part hpart with rfl | rfl
      · exact .inl rfl
      · exact .inr rfl
    · have slashless : ∀ part ∈ idle, '/' ∉ part := by
        intro part hpart
        rcases stay part hpart with rfl | rfl <;> decide
      rw [names, parent_eq, hrest, pieces_append_flatMap slashless, List.map_append]
    · rw [parent_eq, forward, hrest, List.append_assoc]
      cases idle with
      | nil => exact ⟨_, rfl⟩
      | cons part idle => exact ⟨_, rfl⟩
  · left
    rw [names_of_slashless slash, ← List.nil_append [text]] at split
    obtain ⟨rfl, hname⟩ := List.append_inj' split rfl
    obtain rfl := List.singleton_inj.mp hname
    have alone := parent_of_reverse (List.append_nil text.toList.reverse).symm (fun h => slash (List.mem_reverse.mp h))
      (by rwa [List.reverse_reverse, String.ofList_toList])
    exact ⟨rfl, alone⟩

/-- What a path begins with, up to a slash, is a path as well. -/
theorem fault?_of_append {directory : String} {rest : List Char} (cut : text.toList = directory.toList ++ rest)
    (some_char : directory ≠ "") (h : fault? text = none) : fault? directory = none := by
  have whole : text = directory ++ String.ofList rest := by
    rw [← String.toList_inj, String.toList_append, String.toList_ofList, cut]
  unfold fault? at h ⊢
  split at h
  · cases h
  split at h
  · cases h
  split at h
  · cases h
  · rename_i zero empty long
    rw [if_neg, if_neg some_char, if_neg]
    · rw [whole, String.utf8ByteSize_append] at long
      omega
    · rw [List.contains_iff_mem] at zero ⊢
      intro mem
      exact zero (cut ▸ List.mem_append_left rest mem)

theorem isAbsolute_of_append {directory : String} {rest : List Char} (cut : text.toList = directory.toList ++ rest)
    (some_char : directory ≠ "") : isAbsolute directory = isAbsolute text := by
  obtain ⟨c, chars, hc⟩ := List.exists_cons_of_ne_nil fun e => some_char (String.toList_eq_nil_iff.mp e)
  rw [isAbsolute, isAbsolute, cut, hc]
  rfl

end PathText

namespace Disk
variable {d d' : Disk} {base p q : Path} {name text : String} {names : List String} {bytes : List UInt8}

/-! ### Following a written path -/

theorem isDirectory_iff : d.isDirectory p ↔ d.node? p = some .directory := by simp [isDirectory]

theorem enter_eq_ok : d.enter p name = .ok q ↔
    d.isDirectory p ∧ PathText.isTooLong name = false ∧ q = follow p name := by
  constructor
  · intro h
    have led := enter_eq_follow h
    unfold enter look at h
    rw [isDirectory_iff]
    split at h
    · rename_i there
      split at there
      · cases there
        split at h
        · cases h
        · rename_i hn short
          exact ⟨hn, by simpa using short, led⟩
      · split at there <;> cases there
    · cases h
    · cases h
  · rintro ⟨there, short, rfl⟩
    exact enter_of_isDirectory there short

/-- A way is followed exactly if all its stations are directories and none of its names is too long. -/
theorem foldlM_enter_eq_ok : (names ++ [name]).foldlM d.enter p = .ok q ↔
    (∀ r ∈ stations p names, d.isDirectory r) ∧ (∀ n ∈ names ++ [name], PathText.isTooLong n = false) ∧
      q = (names ++ [name]).foldl follow p := by
  induction names generalizing p with
  | nil =>
    rw [List.nil_append, List.foldlM_cons]
    simp [stations, enter_eq_ok]
  | cons first rest ih =>
    rw [List.cons_append, List.foldlM_cons, bind_eq_ok]
    simp only [enter_eq_ok, ih]
    simp only [stations, List.forall_mem_cons, List.foldl_cons]
    constructor
    · rintro ⟨_, ⟨here, short, rfl⟩, made, shorts, led⟩
      exact ⟨⟨here, made⟩, ⟨short, shorts⟩, led⟩
    · rintro ⟨⟨here, made⟩, ⟨short, shorts⟩, led⟩
      exact ⟨_, ⟨here, short, rfl⟩, made, shorts, led⟩

theorem resolve_eq_ok : d.resolve base text = .ok p ↔ PathText.fault? text = none ∧
    (∀ q ∈ stations (start base text) (PathText.names text).dropLast, d.isDirectory q) ∧
    (∀ n ∈ PathText.names text, PathText.isTooLong n = false) ∧ p = normalize base text := by
  obtain ⟨front, last, split⟩ := (List.eq_nil_or_concat' (PathText.names text)).resolve_left (PathText.names_ne_nil text)
  rw [normalize, resolve, split, List.dropLast_concat]
  split
  · rename_i faulty
    simp [faulty]
  · rename_i sound
    rw [foldlM_enter_eq_ok, sound]
    simp only [true_and]

/-- Writing a file changes nothing on the way to it, and it is read again. -/
theorem readAt_of_writeAt (h : d.writeAt base text bytes = .ok d') : d'.readAt base text = .ok bytes := by
  unfold writeAt at h
  rcases resolved : d.resolve base text with fault | p
  · rw [resolved] at h
    cases h
  rw [resolved] at h
  have written : d.write p bytes = .ok d' := h
  obtain ⟨fault, made, short, led⟩ := resolve_eq_ok.mp resolved
  have nodes := node?_write written
  have target : ¬d.isDirectory p := by
    intro there
    unfold write at written
    split at written
    · cases written
    · cases written
    · rw [if_pos there] at written
      cases written
  have still : d'.resolve base text = .ok p := by
    refine resolve_eq_ok.mpr ⟨fault, fun q hq => ?_, short, led⟩
    have there := made q hq
    have other : q ≠ p := by
      rintro rfl
      exact target there
    rw [isDirectory_iff, nodes, if_neg other]
    exact isDirectory_iff.mp there
  rw [readAt, still]
  change d'.read p = .ok bytes
  rw [read, look, nodes, if_pos rfl]

/-! ### Making the way to a file -/

theorem stations_append_idle {idle : List String} (stay : ∀ n ∈ idle, PathText.IsIdle n) :
    (∀ q, q ∈ stations p (names ++ idle) ↔ q ∈ stations p names) ∧
      (names ++ idle).foldl follow p = names.foldl follow p := by
  induction names generalizing p with
  | nil =>
    rw [List.nil_append]
    induction idle with
    | nil => exact ⟨fun q => Iff.rfl, rfl⟩
    | cons n idle ih =>
      obtain ⟨first, rest⟩ := List.forall_mem_cons.mp stay
      have same : follow p n = p := by rcases first with rfl | rfl <;> rfl
      rw [List.foldl_cons, same]
      refine ⟨fun q => ?_, (ih rest).2⟩
      change q ∈ p :: stations (follow p n) idle ↔ q ∈ [p]
      rw [same, List.mem_cons, (ih rest).1]
      simp [stations]
  | cons first rest ih =>
    rw [List.cons_append, List.foldl_cons, List.foldl_cons, stations, stations]
    refine ⟨fun q => ?_, ih.2⟩
    rw [List.mem_cons, List.mem_cons, ih.1]

/-- Nothing keeps a directory from being made at a written path. -/
structure OpenTo (d : Disk) (base : Path) (directory : String) : Prop where
  fault : PathText.fault? directory = none
  short : ∀ n ∈ PathText.names directory, PathText.isTooLong n = false
  start : d.isDirectory (start base directory)
  noFile : ∀ q ∈ stations (Disk.start base directory) (PathText.names directory), d.isFile q = false

/-- A way to something that exists is there already. -/
theorem OpenTo.made (h : d.OpenTo base text) (there : (d.nodeAt? base text).isSome) :
    ∀ q ∈ stations (Disk.start base text) (PathText.names text), d.node? q = some .directory := by
  obtain ⟨front, last, split⟩ := (List.eq_nil_or_concat' (PathText.names text)).resolve_left (PathText.names_ne_nil text)
  rcases resolved : d.resolve base text with fault | p
  · simp [nodeAt?, resolved, Except.toOption] at there
  obtain ⟨-, above, -, led⟩ := resolve_eq_ok.mp resolved
  have noFile := h.noFile
  rw [split, List.dropLast_concat] at above
  rw [normalize, split, List.foldl_append] at led
  rw [split, stations_append] at noFile ⊢
  intro q hq
  rcases List.mem_append.mp hq with hq | hq
  · exact isDirectory_iff.mp (above q hq)
  · have final : d.isFile p = false := noFile p (List.mem_append_right _ (List.mem_singleton.mpr led))
    have stands : (d.node? p).isSome := by simpa [nodeAt?, resolved, Except.toOption] using there
    rw [List.mem_singleton.mp hq, ← List.foldl_nil (f := follow) (b := follow _ last), ← List.foldl_cons, ← led]
    exact isDirectory_iff.mp (isDirectory_of_node? final stands)

/-- If nothing is in the way, then all stations become directories, and nothing else changes. -/
theorem OpenTo.ensureDirectoryAt (h : d.OpenTo base text) :
    ∃ d', d.ensureDirectoryAt base text = (.ok (), d') ∧ ∀ q, d'.node? q =
      if q ∈ stations (Disk.start base text) (PathText.names text) then some .directory else d.node? q := by
  unfold Disk.ensureDirectoryAt
  split
  · rename_i there
    refine ⟨d, rfl, fun q => ?_⟩
    split
    · rename_i station
      exact h.made there q station
    · rfl
  · rw [makeDirectoriesAt, h.fault]
    exact makeWay_of_open false h.start h.noFile h.short

/-! ### Writing a file and the way to it -/

/-- The directories on the way to a file. -/
def wayStations (base : Path) (text : String) : List Path :=
  stations (start base text) (PathText.names text).dropLast

/-- No file is in the way to a written path, and no directory stands where it leads or would be made there. -/
structure Writable (d : Disk) (base : Path) (text : String) : Prop where
  fault : PathText.fault? text = none
  short : ∀ n ∈ PathText.names text, PathText.isTooLong n = false
  proper : ∃ name ∈ (PathText.names text).getLast?, name ∉ ["", ".", ".."]
  start : d.isDirectory (start base text)
  noFile : ∀ q ∈ wayStations base text, d.isFile q = false
  apart : normalize base text ∉ wayStations base text
  target : d.isDirectory (normalize base text) = false

/-- The disk is the same but that all stations on the way to a file are directories. -/
def WayMade (d d' : Disk) (base : Path) (text : String) : Prop :=
  ∀ q, d'.node? q = if q ∈ wayStations base text then some .directory else d.node? q

/-- The way to a file is made with the directory that it lies in. -/
theorem Writable.parent (h : d.Writable base text) :
    (PathText.parent text = "" → d.WayMade d base text) ∧
    (PathText.parent text ≠ "" → d.OpenTo base (PathText.parent text) ∧
      ∀ q, q ∈ wayStations base text ↔
        q ∈ stations (Disk.start base (PathText.parent text)) (PathText.names (PathText.parent text))) := by
  obtain ⟨name, last, proper⟩ := h.proper
  obtain ⟨front, split⟩ := List.getLast?_eq_some_iff.mp last
  have moves : ¬PathText.IsIdle name := by
    rintro (rfl | rfl) <;> simp at proper
  have way : wayStations base text = stations (Disk.start base text) front := by
    rw [wayStations, split, List.dropLast_concat]
  have lies := PathText.parent_inv split moves
  constructor
  · intro empty q
    have idle : ∀ n ∈ front, PathText.IsIdle n := by
      rcases lies with ⟨none, -⟩ | ⟨idle, stay, front_eq, -⟩
      · simp [none]
      · have root : PathText.names "" = [""] := rfl
        rw [front_eq, empty, root]
        exact List.forall_mem_cons.mpr ⟨.inl rfl, stay⟩
    have here : q ∈ wayStations base text ↔ q = Disk.start base text := by
      rw [way, ← List.nil_append front, (stations_append_idle idle).1]
      exact List.mem_singleton
    split
    · rename_i station
      rw [here.mp station]
      exact isDirectory_iff.mp h.start
    · rfl
  · intro some_char
    rcases lies with ⟨-, empty⟩ | ⟨idle, stay, front_eq, rest, cut⟩
    · exact absurd empty some_char
    have same : Disk.start base (PathText.parent text) = Disk.start base text := by
      rw [Disk.start, PathText.isAbsolute_of_append cut some_char, Disk.start]
    have stations : ∀ q, q ∈ wayStations base text ↔
        q ∈ stations (Disk.start base (PathText.parent text)) (PathText.names (PathText.parent text)) := by
      intro q
      rw [way, front_eq, same, (stations_append_idle stay).1]
    refine ⟨⟨PathText.fault?_of_append cut some_char h.fault, ?_, ?_, ?_⟩, stations⟩
    · intro n hn
      refine h.short n ?_
      rw [split, front_eq]
      simp [hn]
    · rw [same]
      exact h.start
    · intro q hq
      exact h.noFile q ((stations q).mpr hq)

/-- A file can be written when the way has been made. -/
theorem Writable.writeAt (h : d.Writable base text) (made : d.WayMade d' base text) (bytes : List UInt8) :
    ∃ e, d'.writeAt base text bytes = .ok e := by
  have resolved : d'.resolve base text = .ok (normalize base text) := by
    refine resolve_eq_ok.mpr ⟨h.fault, ?_, h.short, rfl⟩
    intro q (hq : q ∈ wayStations base text)
    rw [isDirectory_iff, made, if_pos hq]
  have target : d'.isDirectory (normalize base text) = false := by
    rw [isDirectory, made, if_neg h.apart]
    exact h.target
  have folder : d'.node? (normalize base text).dropLast = some .directory := by
    obtain ⟨name, last, proper⟩ := h.proper
    obtain ⟨front, split⟩ := List.getLast?_eq_some_iff.mp last
    have led : normalize base text = front.foldl follow (Disk.start base text) ++ [name] := by
      rw [normalize, split, List.foldl_append]
      exact follow_of_moves proper _
    have way : wayStations base text = stations (Disk.start base text) front := by
      rw [wayStations, split, List.dropLast_concat]
    rw [made, if_pos]
    rw [led, List.dropLast_concat, way]
    exact foldl_mem_stations _ _
  rw [Disk.writeAt, resolved]
  change ∃ e, d'.write (normalize base text) bytes = .ok e
  rw [write, look, folder]
  dsimp only
  rw [target]
  exact ⟨_, rfl⟩

end Disk
end GridCatalog
