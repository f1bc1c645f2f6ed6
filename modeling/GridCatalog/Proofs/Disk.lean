import Mathlib.Data.List.Nodup
import GridCatalog.Disk.PathText

/-! Where written paths lead, and what making a way changes.

    A written path passes through the directories at its stations. If no file stands in the way, it is
    followed exactly when all stations are directories (`foldlM_enter`), and making the way turns all
    stations into directories and changes nothing else (`makeWay_of_open`). -/

namespace GridCatalog

/-! ### Names -/

namespace PathText

/-- A text that names something inside a directory. -/
structure IsName (name : String) : Prop where
  moves : name ∉ ["", ".", ".."]
  slashless : '/' ∉ name.toList
  short : isTooLong name = false

/-- The names that lead into the directory at a written path: a slash at its end adds nothing. -/
def way (directory : String) : List String :=
  if (names directory).getLast? = some "" then (names directory).dropLast else names directory

theorem names_of_slashless {name : String} (h : '/' ∉ name.toList) : names name = [name] := by
  rw [names, Text.pieces_of_notMem h, List.map_singleton, String.ofList_toList]

theorem getLast?_names {text : String} :
    (names text).getLast? = some "" ↔ text.toList = [] ∨ text.toList.getLast? = some '/' := by
  rw [← Text.getLast?_pieces, names, List.getLast?_map, Option.map_eq_some_iff]
  constructor
  · rintro ⟨part, hpart, hempty⟩
    rw [hpart, String.ofList_eq_empty_iff.mp hempty]
  · exact fun h => ⟨[], h, rfl⟩

theorem IsName.ne_empty {name : String} (h : IsName name) : name ≠ "" := fun e => h.moves (by simp [e])

theorem isAbsolute_of_slashless {name : String} (h : '/' ∉ name.toList) : isAbsolute name = false := by
  refine decide_eq_false fun e => h ?_
  rw [List.head?_eq_some_iff] at e
  obtain ⟨rest, hrest⟩ := e
  exact hrest ▸ List.mem_cons_self

/-- The names of a name in a directory are the way into the directory and the name. -/
theorem names_join {directory name : String} (h : '/' ∉ name.toList) :
    names (join directory name) = way directory ++ [name] := by
  unfold join way
  rw [isAbsolute_of_slashless h, Bool.or_false]
  by_cases hempty : directory = ""
  · subst hempty
    rw [if_pos (by rfl), names_of_slashless h]
    rfl
  rw [if_neg (by simpa using hempty)]
  split
  · rename_i slash
    obtain ⟨front, hfront⟩ := List.getLast?_eq_some_iff.mp slash
    have whole : names directory = (Text.pieces '/' front).map String.ofList ++ [""] := by
      rw [names, hfront, Text.pieces_append]
      simp [Text.pieces]
    rw [whole, if_pos (by simp), names, String.toList_append, hfront, List.append_assoc, List.singleton_append,
      Text.pieces_append, Text.pieces_of_notMem h]
    simp
  · rename_i open_end
    have nonempty : directory.toList ≠ [] := fun e => hempty (String.toList_eq_nil_iff.mp e)
    rw [if_neg fun e => (getLast?_names.mp e).elim nonempty open_end, names, String.toList_append, String.toList_append]
    have slash : "/".toList = ['/'] := rfl
    rw [slash, List.append_assoc, List.singleton_append, Text.pieces_append, Text.pieces_of_notMem h]
    simp [names]

theorem isAbsolute_join {directory name : String} (h : '/' ∉ name.toList) :
    isAbsolute (join directory name) = isAbsolute directory := by
  unfold join
  rw [isAbsolute_of_slashless h, Bool.or_false]
  by_cases hempty : directory = ""
  · subst hempty
    rw [if_pos (by rfl), isAbsolute_of_slashless h]
    rfl
  have nonempty : directory.toList ≠ [] := fun e => hempty (String.toList_eq_nil_iff.mp e)
  rw [if_neg (by simpa using hempty)]
  obtain ⟨c, rest, hc⟩ := List.exists_cons_of_ne_nil nonempty
  split <;> simp [isAbsolute, String.toList_append, hc]

end PathText

namespace Disk
variable {d d' : Disk} {base p q : Path} {name : String} {names : List String}

/-! ### The names in a directory -/

theorem mem_keys {q : Path} (h : q ≠ []) : q ∈ d.nodes.keys ↔ (d.node? q).isSome := by
  rw [node?, if_neg h, Option.isSome_iff_ne_none, ne_eq, Table.get?_eq_none_iff, not_not]

theorem mem_names : name ∈ d.names p ↔ (d.node? (p ++ [name])).isSome := by
  rw [← mem_keys (by simp), Disk.names, List.mem_filterMap]
  constructor
  · rintro ⟨q, hq, hname⟩
    split at hname
    · rename_i hp
      rw [← hp, List.dropLast_append_getLast? name hname]
      exact hq
    · cases hname
  · exact fun h => ⟨p ++ [name], h, by simp⟩

theorem nodup_names (d : Disk) (p : Path) : (d.names p).Nodup := by
  refine List.Nodup.filterMap (fun q q' name hq hq' => ?_) d.nodes.nodup
  split at hq <;> split at hq' <;> try contradiction
  rename_i hp hp'
  rw [← List.dropLast_append_getLast? name hq, ← List.dropLast_append_getLast? name hq', hp, hp']

/-! ### Following a way -/

theorem follow_of_moves (h : name ∉ ["", ".", ".."]) (p : Path) : follow p name = p ++ [name] := by
  unfold follow
  split <;> simp_all

/-- No file stands at the path or above it. -/
def Clear (d : Disk) (p : Path) : Prop := ∀ q, q <+: p → d.isFile q = false

theorem Clear.isFile (h : d.Clear p) : d.isFile p = false := h p (List.prefix_refl p)

theorem isDirectory_of_node? (h : d.isFile p = false) (some : (d.node? p).isSome) : d.isDirectory p := by
  obtain ⟨node, hnode⟩ := Option.isSome_iff_exists.mp some
  cases node with
  | file bytes => simp [isFile, hnode] at h
  | directory => simp [isDirectory, hnode]

theorem look_missing (clear : d.Clear p.dropLast) (h : d.node? p = none) : d.look p = .error .missing := by
  have : (beginnings p.dropLast).any d.isFile = false := by
    refine List.any_eq_false.mpr fun q hq => ?_
    obtain ⟨n, -, rfl⟩ := List.mem_map.mp hq
    rw [clear _ (List.take_prefix _ _)]
    exact Bool.false_ne_true
  rw [look, h]
  simp only [this]
  rfl

/-- The directories that a way passes through: where it starts, and where each of its names leads. -/
def stations (p : Path) : List String → List Path
  | [] => [p]
  | name :: rest => p :: stations (follow p name) rest

theorem mem_stations_self (p : Path) (names : List String) : p ∈ stations p names := by
  cases names <;> exact List.mem_cons_self

theorem stations_append (p : Path) (names : List String) (name : String) :
    stations p (names ++ [name]) = stations p names ++ [follow (names.foldl follow p) name] := by
  induction names generalizing p with
  | nil => rfl
  | cons first rest ih => exact congrArg (p :: ·) (ih _)

theorem foldl_mem_stations (p : Path) (names : List String) : names.foldl follow p ∈ stations p names := by
  induction names generalizing p with
  | nil => exact List.mem_cons_self
  | cons first rest ih => exact List.mem_cons_of_mem _ (ih _)

theorem prefix_follow (p : Path) (h : name ≠ "..") : p <+: follow p name := by
  unfold follow
  split
  · exact List.prefix_refl p
  · exact List.prefix_refl p
  · exact absurd rfl h
  · exact List.prefix_append _ _

theorem prefix_foldl (straight : ".." ∉ names) : p <+: names.foldl follow p := by
  induction names generalizing p with
  | nil => exact List.prefix_refl p
  | cons name rest ih =>
    have first := prefix_follow p fun (h : name = "..") => straight (h ▸ List.mem_cons_self)
    exact first.trans (ih fun h => straight (List.mem_cons_of_mem _ h))

/-- A way without a name that goes up stays above where it leads. -/
theorem stations_prefix (straight : ".." ∉ names) : ∀ q ∈ stations p names, q <+: names.foldl follow p := by
  induction names generalizing p with
  | nil => exact fun q hq => List.mem_singleton.mp hq ▸ List.prefix_refl p
  | cons name rest ih =>
    intro q hq
    rcases List.mem_cons.mp hq with rfl | hq
    · exact prefix_foldl straight
    · exact ih (fun h => straight (List.mem_cons_of_mem _ h)) q hq

theorem enter_of_isDirectory (h : d.isDirectory p) (short : PathText.isTooLong name = false) :
    d.enter p name = .ok (follow p name) := by
  rw [enter, look, of_decide_eq_true h]
  simp [short]

/-- An empty name stays where it is. -/
theorem enter_empty (h : d.enter q "" = .ok p) : q = p := by
  unfold enter at h
  split at h
  · rw [if_neg (by decide)] at h
    exact Except.ok.inj h
  · cases h
  · cases h

/-- A way on which no file stands is followed if all its stations are directories, and otherwise something is
    missing. -/
theorem foldlM_enter (clear : ∀ q ∈ stations p names, d.Clear q)
    (short : ∀ n ∈ names ++ [name], PathText.isTooLong n = false) :
    (names ++ [name]).foldlM d.enter p =
      if (stations p names).all d.isDirectory then .ok (follow (names.foldl follow p) name) else .error .missing := by
  -- Either the first station is a directory and the others decide, or it is missing and so is all behind it.
  induction names generalizing p with
  | nil =>
    have here := clear p List.mem_cons_self
    have hname := short name (by simp)
    cases hp : d.node? p with
    | none =>
      have gone : d.isDirectory p = false := by simp [isDirectory, hp]
      have above : d.Clear p.dropLast := fun q hq => here q (hq.trans (List.dropLast_prefix p))
      simp [stations, gone, enter, look_missing above hp, bind, Except.bind]
    | some node =>
      have there : d.isDirectory p := isDirectory_of_node? here.isFile (by simp [hp])
      simp [stations, there, enter_of_isDirectory there hname, bind, Except.bind, pure, Except.pure]
  | cons first rest ih =>
    have here := clear p List.mem_cons_self
    have hfirst := short first List.mem_cons_self
    have later := ih (p := follow p first) (fun q hq => clear q (List.mem_cons_of_mem _ hq))
      fun n hn => short n (List.mem_cons_of_mem _ hn)
    cases hp : d.node? p with
    | none =>
      have gone : d.isDirectory p = false := by simp [isDirectory, hp]
      have above : d.Clear p.dropLast := fun q hq => here q (hq.trans (List.dropLast_prefix p))
      simp [stations, gone, enter, look_missing above hp, bind, Except.bind]
    | some node =>
      have there : d.isDirectory p := isDirectory_of_node? here.isFile (by simp [hp])
      rw [List.cons_append, List.foldlM_cons, enter_of_isDirectory there hfirst]
      refine later.trans ?_
      simp [stations, there]

/-- A name in a directory leads one step further than the directory. -/
theorem resolve_join {directory : String} (h : PathText.IsName name)
    (fault : PathText.fault? (PathText.join directory name) = none) (resolved : d.resolve base directory = .ok p)
    (there : d.isDirectory p) : d.resolve base (PathText.join directory name) = .ok (p ++ [name]) := by
  have into : (PathText.way directory).foldlM d.enter (start base directory) = .ok p := by
    -- A slash at the end gives the path an empty last name, which leads nowhere.
    unfold resolve at resolved
    split at resolved
    · cases resolved
    unfold PathText.way
    split
    · rename_i slash
      obtain ⟨front, hfront⟩ := List.getLast?_eq_some_iff.mp slash
      rw [hfront, List.foldlM_append] at resolved
      rw [hfront, List.dropLast_concat]
      cases hq : front.foldlM d.enter (start base directory) with
      | error fault =>
        rw [hq] at resolved
        cases resolved
      | ok q =>
        rw [hq] at resolved
        have last : d.enter q "" = .ok p := by
          rcases hlast : d.enter q "" with fault | r
          · simp [bind, Except.bind, hlast] at resolved
          · simpa [bind, Except.bind, pure, Except.pure, hlast] using resolved
        exact congrArg _ (enter_empty last)
    · exact resolved
  have starts : start base (PathText.join directory name) = start base directory := by
    rw [start, PathText.isAbsolute_join h.slashless, start]
  rw [resolve, fault, PathText.names_join h.slashless, starts]
  simp [List.foldlM_append, into, enter_of_isDirectory there h.short, follow_of_moves h.moves, bind, Except.bind, pure,
    Except.pure]

/-! ### Making a way -/

theorem node?_makeDirectory (h : d.node? p = none) (q : Path) :
    (d.makeDirectory p).node? q = if q = p then some .directory else d.node? q := by
  have hp : p ≠ [] := by
    rintro rfl
    cases h
  rw [makeDirectory, if_neg (by simp [h])]
  by_cases hq : q = []
  · subst hq
    rw [if_neg hp.symm]
    rfl
  · simp [node?, hq, Table.get?_insert]

/-- A way on which no file stands is made by turning its stations into directories. -/
theorem makeWay_of_open (made : Bool) (here : d.isDirectory p) (noFile : ∀ q ∈ stations p names, d.isFile q = false)
    (short : ∀ n ∈ names, PathText.isTooLong n = false) :
    ∃ d', d.makeWay p made names = (.ok (), d') ∧
      ∀ q, d'.node? q = if q ∈ stations p names then some .directory else d.node? q := by
  induction names generalizing d p made with
  | nil =>
    refine ⟨d, rfl, fun q => ?_⟩
    by_cases hq : q = p
    · subst hq
      simp [stations, of_decide_eq_true here]
    · simp [stations, hq]
  | cons name rest ih =>
    have hshort := short name List.mem_cons_self
    have rest_short : ∀ n ∈ rest, PathText.isTooLong n = false := fun n hn => short n (List.mem_cons_of_mem _ hn)
    have next_open := noFile (follow p name) (List.mem_cons_of_mem _ (mem_stations_self _ _))
    -- Where the way starts is a directory anyway, so it may count as a station or not.
    have counts : ∀ q (e : Disk), e.node? p = some .directory →
        (if q ∈ stations (follow p name) rest then some .directory else e.node? q) =
          if q ∈ stations p (name :: rest) then some .directory else e.node? q := fun q e he => by
      by_cases hq : q = p
      · subst hq
        simp [stations, he]
      · simp [stations, hq]
    cases hnext : d.node? (follow p name) with
    | some node =>
      have there : d.isDirectory (follow p name) := isDirectory_of_node? next_open (by simp [hnext])
      obtain ⟨d', hd', nodes⟩ := ih made there (fun q hq => noFile q (List.mem_cons_of_mem _ hq)) rest_short
      refine ⟨d', ?_, fun q => by rw [nodes, counts q d (of_decide_eq_true here)]⟩
      rw [makeWay, if_neg (by simp [hshort]), of_decide_eq_true there]
      exact hd'
    | none =>
      have make := node?_makeDirectory hnext
      have there : (d.makeDirectory (follow p name)).isDirectory (follow p name) := by simp [isDirectory, make]
      have still : ∀ q ∈ stations (follow p name) rest, (d.makeDirectory (follow p name)).isFile q = false :=
        fun q hq => by
          have := noFile q (List.mem_cons_of_mem _ hq)
          rw [isFile, make]
          split_ifs
          · rfl
          · exact this
      obtain ⟨d', hd', nodes⟩ := ih true there still rest_short
      refine ⟨d', ?_, fun q => ?_⟩
      · rw [makeWay, if_neg (by simp [hshort]), hnext]
        exact hd'
      · rw [nodes, ← counts q d (of_decide_eq_true here), make]
        by_cases hq : q = follow p name
        · subst hq
          simp [mem_stations_self]
        · simp [hq]

end Disk

end GridCatalog
