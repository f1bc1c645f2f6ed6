import GridCatalog.Json.Reader
import GridCatalog.Proofs.JsonStrings

/-! JSON texts that are written and read.

    The tokens of a value do not depend on the form that it is written in. A text is described by the tokens that its
    characters add to what has been read (`Gives`); behind a word these are complete only when the next mark or blank
    comes, or the end. -/

namespace GridCatalog.Json

/-! ### Reading characters -/

def Scan.read? (s : Scan) (cs : List Char) : Option Scan := (Text.utf8Encode cs).foldlM Scan.push? s

/-- The tokens are complete once a word that may be open is ended. -/
def Scan.Holds (s : Scan) (ts : List Token) : Prop := s.endWord? = some ⟨ts, .between⟩

/-- The characters add tokens and leave nothing open. -/
def Ends (cs : List Char) (ts : List Token) : Prop :=
  ∀ before, Scan.read? ⟨before, .between⟩ cs = some ⟨ts.reverse ++ before, .between⟩

/-- The characters add tokens and leave nothing open but perhaps a word. -/
def Gives (cs : List Char) (ts : List Token) : Prop :=
  ∀ before, ∃ s, Scan.read? ⟨before, .between⟩ cs = some s ∧ s.Holds (ts.reverse ++ before)

variable {s : Scan} {cs ds : List Char} {ts us : List Token} {c : Char} {m : Token}

theorem Scan.read?_append (s : Scan) (cs ds : List Char) : s.read? (cs ++ ds) = (s.read? cs).bind (·.read? ds) := by
  rw [read?, Text.utf8Encode_append, List.foldlM_append]
  rfl

theorem Scan.read?_ascii (h : c.toNat < 0x80) : ∃ b, Text.byteChar b = c ∧ ∀ s : Scan, s.read? [c] = s.push? b := by
  obtain ⟨b, hb, -, hc⟩ := Text.utf8EncodeChar_of_ascii h
  refine ⟨b, hc, fun s => ?_⟩
  rw [read?, Text.utf8Encode_singleton, hb, List.foldlM_cons]
  cases s.push? b <;> rfl

theorem Scan.Holds.push? (h : s.Holds ts) (b : UInt8) : s.push? b = s.pushOutside? b := by
  obtain ⟨tokens, reading⟩ := s
  cases reading with
  | between => rfl
  | word => rfl
  | quoted => cases h
  | escaped => cases h

theorem Ends.gives (h : Ends cs ts) : Gives cs ts := fun before => ⟨_, h before, rfl⟩

theorem Ends.nil : Ends [] [] := fun _ => rfl

theorem Ends.append (h : Ends cs ts) (h' : Ends ds us) : Ends (cs ++ ds) (ts ++ us) := fun before => by
  rw [Scan.read?_append, h, Option.bind_some, h', List.reverse_append, List.append_assoc]

theorem Ends.append_gives (h : Ends cs ts) (h' : Gives ds us) : Gives (cs ++ ds) (ts ++ us) := fun before => by
  obtain ⟨s, hs, holds⟩ := h' (ts.reverse ++ before)
  refine ⟨s, ?_, ?_⟩
  · rw [Scan.read?_append, h, Option.bind_some, hs]
  · rwa [List.reverse_append, List.append_assoc]

theorem ascii_of_mark (hc : Token.ofMark? c = some m) : c.toNat < 0x80 := by
  unfold Token.ofMark? at hc
  split at hc <;> first | decide | cases hc

theorem ascii_of_space (hc : isSpace c = true) : c.toNat < 0x80 := by
  simp only [isSpace, Bool.or_eq_true, decide_eq_true_eq] at hc
  rcases hc with ((rfl | rfl) | rfl) | rfl <;> decide

/-- A mark ends what stands in front of it. -/
theorem Gives.mark (h : Gives cs ts) (hc : Token.ofMark? c = some m) : Ends (cs ++ [c]) (ts ++ [m]) := fun before => by
  obtain ⟨s, hs, holds⟩ := h before
  obtain ⟨b, hb, hread⟩ := Scan.read?_ascii (ascii_of_mark hc)
  rw [Scan.read?_append, hs, Option.bind_some, hread, holds.push?, Scan.pushOutside?]
  simp only [hb, hc]
  rw [holds, List.reverse_append]
  rfl

/-- A blank ends what stands in front of it. -/
theorem Gives.space (h : Gives cs ts) (hc : isSpace c = true) : Ends (cs ++ [c]) ts := fun before => by
  obtain ⟨s, hs, holds⟩ := h before
  obtain ⟨b, hb, hread⟩ := Scan.read?_ascii (ascii_of_space hc)
  have hmark : Token.ofMark? c = none := by
    simp only [isSpace, Bool.or_eq_true, decide_eq_true_eq] at hc
    rcases hc with ((rfl | rfl) | rfl) | rfl <;> rfl
  rw [Scan.read?_append, hs, Option.bind_some, hread, holds.push?, Scan.pushOutside?]
  simp only [hb, hc, hmark]
  exact holds

theorem Ends.mark (hc : Token.ofMark? c = some m) : Ends [c] [m] := Ends.nil.gives.mark hc

theorem Ends.blanks (h : ∀ c ∈ cs, isSpace c = true) : Ends cs [] := by
  induction cs with
  | nil => exact Ends.nil
  | cons c cs ih =>
    exact Ends.append (Ends.nil.gives.space (h c List.mem_cons_self)) (ih fun c hc => h c (List.mem_cons_of_mem _ hc))

theorem Gives.blanks (h : Gives cs ts) (hds : ∀ c ∈ ds, isSpace c = true) : Gives (cs ++ ds) ts := by
  cases ds with
  | nil => rwa [List.append_nil]
  | cons d ds =>
    have := (h.space (hds d List.mem_cons_self)).append (Ends.blanks fun c hc => hds c (List.mem_cons_of_mem _ hc))
    rw [List.append_assoc, List.append_nil] at this
    exact this.gives

/-- A string that is written is read back. -/
theorem Ends.quote (x : String) : Ends (quote x) [.scalar (.ofString x)] := fun before => by
  obtain ⟨b, hb, hread⟩ := Scan.read?_ascii (c := '"') (by decide)
  have opens : Scan.read? ⟨before, .between⟩ ['"'] = some ⟨before, .quoted []⟩ := by
    rw [hread, Scan.push?, Scan.pushOutside?]
    simp [hb, Token.ofMark?, isSpace, Scan.endWord?]
  have content := (Stands.text x.toList).scan before []
  have closes : Scan.read? ⟨before, .quoted (Text.utf8Encode (x.toList.flatMap escape)).reverse⟩ ['"'] =
      some ⟨.scalar (.ofString x) :: before, .between⟩ := by
    rw [hread, Scan.push?]
    simp [hb, unquote?_escape]
  rw [Json.quote, Scan.read?_append, show '"' :: x.toList.flatMap escape = ['"'] ++ x.toList.flatMap escape from rfl,
    Scan.read?_append, opens, Option.bind_some, Scan.read?, content, List.append_nil, Option.bind_some, closes]
  rfl

/-! ### Words -/

/-- The character may stand in a word. -/
def isWordChar (c : Char) : Bool := c.toNat < 0x80 && (Token.ofMark? c).isNone && !isSpace c && c ≠ '"'

theorem read?_wordChar (h : isWordChar c = true) {before : List Token} {r : Reading}
    (hr : r = .between ∧ ds = [] ∨ r = .word ds) :
    Scan.read? ⟨before, r⟩ [c] = some ⟨before, .word (c :: ds)⟩ := by
  simp only [isWordChar, Bool.and_eq_true, decide_eq_true_eq, Option.isNone_iff_eq_none, Bool.not_eq_true'] at h
  obtain ⟨⟨⟨ascii, noMark⟩, noSpace⟩, noQuote⟩ := h
  obtain ⟨b, hb, hread⟩ := Scan.read?_ascii ascii
  rcases hr with ⟨rfl, rfl⟩ | rfl <;> rw [hread] <;>
    simp [Scan.push?, Scan.pushOutside?, hb, noMark, noSpace, noQuote]

theorem read?_word {before : List Token} {w : List Char} (hw : ∀ c ∈ w, isWordChar c = true) (done : List Char) :
    Scan.read? ⟨before, .word done⟩ w = some ⟨before, .word (w.reverse ++ done)⟩ := by
  induction w generalizing done with
  | nil => rfl
  | cons c w ih =>
    rw [show c :: w = [c] ++ w from rfl, Scan.read?_append, read?_wordChar (hw c List.mem_cons_self) (Or.inr rfl),
      Option.bind_some, ih fun c hc => hw c (List.mem_cons_of_mem _ hc), List.reverse_append, List.append_assoc]
    rfl

/-- A text that is one word leaves that word open. -/
theorem read?_word_between {before : List Token} {w : List Char} (hw : ∀ c ∈ w, isWordChar c = true) (hne : w ≠ []) :
    Scan.read? ⟨before, .between⟩ w = some ⟨before, .word w.reverse⟩ := by
  obtain ⟨c, w, rfl⟩ := List.exists_cons_of_ne_nil hne
  rw [show c :: w = [c] ++ w from rfl, Scan.read?_append, read?_wordChar (hw c List.mem_cons_self) (Or.inl ⟨rfl, rfl⟩),
    Option.bind_some, read?_word (fun c hc => hw c (List.mem_cons_of_mem _ hc)), List.reverse_append]
  rfl

theorem Gives.word {w : List Char} (hw : ∀ c ∈ w, isWordChar c = true) (hne : w ≠ []) {v : Json}
    (hv : wordValue? w = some v) : Gives w [.scalar v] := fun before => by
  refine ⟨_, read?_word_between hw hne, ?_⟩
  simp [Scan.Holds, Scan.endWord?, hv]

/-! ### Tokens of values -/

/-- Parts with commas between them. -/
def listed : List (List Token) → List Token
  | [] => []
  | ts :: rest => ts ++ rest.flatMap (.comma :: ·)

mutual

/-- The tokens of a value in order. -/
def tokens : Json → List Token
  | .array items => .openArray :: listed (itemTokens items) ++ [.closeArray]
  | .object members => .openObject :: listed (memberTokens members) ++ [.closeObject]
  | v => [.scalar v]

def itemTokens : List Json → List (List Token)
  | [] => []
  | v :: rest => tokens v :: itemTokens rest

def memberTokens : List (Option String × Json) → List (List Token)
  | [] => []
  | (name, v) :: rest => (.scalar (.string name) :: .colon :: tokens v) :: memberTokens rest

end

theorem itemTokens_eq (items : List Json) : itemTokens items = items.map tokens := by
  induction items with
  | nil => rw [itemTokens, List.map_nil]
  | cons v items ih => rw [itemTokens, ih, List.map_cons]

theorem memberTokens_eq (members : List (Option String × Json)) :
    memberTokens members = members.map fun m => .scalar (.string m.1) :: .colon :: tokens m.2 := by
  induction members with
  | nil => rw [memberTokens, List.map_nil]
  | cons m members ih => rw [memberTokens, ih, List.map_cons]

theorem compactItems_eq (items : List Json) : compactItems items = items.map compact := by
  induction items with
  | nil => rw [compactItems, List.map_nil]
  | cons v items ih => rw [compactItems, ih, List.map_cons]

theorem compactMembers_eq (members : List (Option String × Json)) :
    compactMembers members = members.map fun m => nameText m.1 ++ ':' :: compact m.2 := by
  induction members with
  | nil => rw [compactMembers, List.map_nil]
  | cons m members ih => rw [compactMembers, ih, List.map_cons]

theorem indentedItems_eq (depth : Nat) (items : List Json) :
    indentedItems depth items = items.map (indented depth) := by
  induction items with
  | nil => rw [indentedItems, List.map_nil]
  | cons v items ih => rw [indentedItems, ih, List.map_cons]

theorem indentedMembers_eq (depth : Nat) (members : List (Option String × Json)) :
    indentedMembers depth members = members.map fun m => nameText m.1 ++ ':' :: ' ' :: indented depth m.2 := by
  induction members with
  | nil => rw [indentedMembers, List.map_nil]
  | cons m members ih => rw [indentedMembers, ih, List.map_cons]

/-! ### Containers -/

theorem separated_cons (separator piece : List Char) (pieces : List (List Char)) :
    separated separator (piece :: pieces) = piece ++ pieces.flatMap (separator ++ ·) := by
  induction pieces generalizing piece with
  | nil => simp [separated]
  | cons next pieces ih => simp [separated, ih]

section
variable {α : Type} {f : α → List Char} {g : α → List Token}

/-- Parts between commas that may be followed by blanks. -/
theorem Gives.separated {inner : List Char} {items : List α} (h : ∀ a ∈ items, Gives (f a) (g a))
    (hinner : ∀ c ∈ inner, isSpace c = true) :
    Gives (separated (',' :: inner) (items.map f)) (listed (items.map g)) := by
  cases items with
  | nil => exact Ends.nil.gives
  | cons a items =>
    rw [List.map_cons, List.map_cons, separated_cons, listed]
    induction items generalizing a with
    | nil =>
      simp only [List.map_nil, List.flatMap_nil, List.append_nil]
      exact h a List.mem_cons_self
    | cons b items ih =>
      have first : Ends (f a ++ [','] ++ inner) (g a ++ [.comma] ++ []) :=
        ((h a List.mem_cons_self).mark rfl).append (Ends.blanks hinner)
      have rest := ih b fun c hc => h c (List.mem_cons_of_mem _ hc)
      have both := first.append_gives rest
      simp only [List.map_cons, List.flatMap_cons, List.append_assoc, List.append_nil, List.cons_append] at both ⊢
      exact both

/-- A container with blanks inside its marks and behind its commas. -/
theorem Gives.container (inner outer : List Char) {o c : Char} {mo mc : Token}
    (ho : Token.ofMark? o = some mo) (hc : Token.ofMark? c = some mc)
    {items : List α} (h : ∀ a ∈ items, Gives (f a) (g a)) (hinner : ∀ c ∈ inner, isSpace c = true)
    (houter : ∀ c ∈ outer, isSpace c = true) :
    Gives (o :: inner ++ Json.separated (',' :: inner) (items.map f) ++ outer ++ [c])
      (mo :: listed (items.map g) ++ [mc]) := by
  have opened : Ends (o :: inner) [mo] := (Ends.mark ho).append (Ends.blanks hinner)
  have filled := opened.append_gives (Gives.separated h hinner)
  exact ((filled.blanks houter).mark hc).gives

end

/-- The value is read back from what is written: it has no empty contents, and its numbers are read back. -/
inductive Readable : Json → Prop
  | null : Readable .null
  | bool (b : Bool) : Readable (.bool b)
  | number {n : Number} (chars : ∀ c ∈ numberText n, isWordChar c = true)
      (word : wordValue? (numberText n) = some (.number (some n))) : Readable (.number (some n))
  | string (x : String) : Readable (.ofString x)
  | array {items : List Json} (values : ∀ v ∈ items, Readable v) : Readable (.array items)
  | object {members : List (Option String × Json)} (names : ∀ m ∈ members, m.1.isSome = true)
      (values : ∀ m ∈ members, Readable m.2) : Readable (.object members)

namespace Readable
variable {v : Json}

theorem gives_null : Gives (scalarText .null) [.scalar .null] :=
  Gives.word (w := "null".toList) (List.all_eq_true.mp rfl) (by decide) rfl

theorem gives_bool (b : Bool) : Gives (scalarText (.bool b)) [.scalar (.bool b)] := by
  cases b
  · exact Gives.word (w := "false".toList) (List.all_eq_true.mp rfl) (by decide) rfl
  · exact Gives.word (w := "true".toList) (List.all_eq_true.mp rfl) (by decide) rfl

theorem gives_number {n : Number} (chars : ∀ c ∈ numberText n, isWordChar c = true)
    (word : wordValue? (numberText n) = some (.number (some n))) :
    Gives (scalarText (.number (some n))) [.scalar (.number (some n))] := by
  refine Gives.word chars (fun hnil => ?_) word
  rw [hnil] at word
  cases word

theorem gives_member (gap : List Char) {name : Option String} (hname : name.isSome = true) {cs : List Char}
    {ts : List Token} (h : Gives cs ts) (hgap : ∀ c ∈ gap, isSpace c = true) :
    Gives (nameText name ++ ':' :: (gap ++ cs)) (.scalar (.string name) :: .colon :: ts) := by
  obtain ⟨x, rfl⟩ := Option.isSome_iff_exists.mp hname
  have named := (Ends.quote x).gives.mark (c := ':') rfl
  have := (named.append (Ends.blanks hgap)).append_gives h
  simp only [List.append_assoc, List.cons_append, List.nil_append] at this
  exact this

/-- The compact text has the tokens of the value. -/
theorem gives_compact (h : Readable v) : Gives (compact v) v.tokens := by
  induction h with
  | null => exact gives_null
  | bool b => exact gives_bool b
  | number chars word => exact gives_number chars word
  | string x => exact (Ends.quote x).gives
  | array _ ih =>
    rw [compact, tokens, compactItems_eq, itemTokens_eq]
    have := Gives.container [] [] (o := '[') (c := ']') rfl rfl ih (by simp) (by simp)
    rwa [List.append_nil] at this
  | object names _ ih =>
    rw [compact, tokens, compactMembers_eq, memberTokens_eq]
    have := Gives.container [] [] (o := '{') (c := '}') rfl rfl
      (fun m hm => gives_member [] (names m hm) (ih m hm) (by simp)) (by simp) (by simp)
    rwa [List.append_nil] at this

theorem isSpace_lineBreak (depth : Nat) : ∀ c ∈ lineBreak depth, isSpace c = true := by
  intro c hc
  rcases List.mem_cons.mp hc with rfl | hc
  · rfl
  · rw [(List.mem_replicate.mp hc).2]
    rfl

theorem gives_block {α : Type} {f : α → List Char} {g : α → List Token} {o c : Char} {mo mc : Token}
    (ho : Token.ofMark? o = some mo) (hc : Token.ofMark? c = some mc) {items : List α}
    (h : ∀ a ∈ items, Gives (f a) (g a)) (depth : Nat) :
    Gives (block o c depth (items.map f)) (mo :: listed (items.map g) ++ [mc]) := by
  unfold block
  split
  · rename_i hnil
    obtain rfl : items = [] := by simpa using hnil
    exact ((Ends.mark ho).append (Ends.mark hc)).gives
  · exact Gives.container _ _ ho hc h (isSpace_lineBreak _) (isSpace_lineBreak _)

/-- The indented text has the tokens of the value. -/
theorem gives_indented (h : Readable v) (depth : Nat) : Gives (indented depth v) v.tokens := by
  induction h generalizing depth with
  | null => exact gives_null
  | bool b => exact gives_bool b
  | number chars word => exact gives_number chars word
  | string x => exact (Ends.quote x).gives
  | array _ ih =>
    rw [indented, tokens, indentedItems_eq, itemTokens_eq]
    exact gives_block rfl rfl (fun v hv => ih v hv _) depth
  | object names _ ih =>
    rw [indented, tokens, indentedMembers_eq, memberTokens_eq]
    exact gives_block rfl rfl
      (fun m hm => gives_member [' '] (names m hm) (ih m hm _) (by simp [isSpace])) depth

end Readable

/-! ### Reading tokens -/

/-- The tokens are read as a value wherever one may stand. -/
def Parses (ts : List Token) (v : Json) : Prop :=
  ∀ stack, ts.foldlM Parse.push? ⟨stack, .value⟩ = some ⟨stack, .follow v⟩

theorem head_tokens (v : Json) :
    ∃ t ts, v.tokens = t :: ts ∧ ∀ stack, Parse.push? ⟨stack, .firstItem⟩ t = Parse.push? ⟨stack, .value⟩ t := by
  rw [tokens.eq_def]
  cases v <;> exact ⟨_, _, rfl, fun _ => rfl⟩

/-- The first item of an array is read like any other. -/
theorem Parses.firstItem {v : Json} (h : Parses v.tokens v) (stack : List Frame) :
    v.tokens.foldlM Parse.push? ⟨stack, .firstItem⟩ = some ⟨stack, .follow v⟩ := by
  obtain ⟨t, ts, hts, hsame⟩ := head_tokens v
  have := h stack
  rw [hts, List.foldlM_cons] at this ⊢
  rw [hsame]
  exact this

theorem read_items {rest : List Json} (h : ∀ u ∈ rest, Parses u.tokens u) (stack : List Frame) (done : List Json)
    (v : Json) :
    ((rest.map tokens).flatMap (Token.comma :: ·) ++ [Token.closeArray]).foldlM Parse.push?
      ⟨.array done :: stack, .follow v⟩ = some ⟨stack, .follow (.array (done.reverse ++ v :: rest))⟩ := by
  -- The comma in front of the next item moves `v` to the items that are done.
  induction rest generalizing done v with
  | nil => simp [Parse.push?, Parse.continue?]
  | cons u rest ih =>
    have hu := h u List.mem_cons_self (.array (v :: done) :: stack)
    have hcomma : Parse.push? ⟨.array done :: stack, .follow v⟩ .comma = some ⟨.array (v :: done) :: stack, .value⟩ := rfl
    rw [List.map_cons, List.flatMap_cons, List.append_assoc, List.cons_append, List.foldlM_cons, hcomma,
      Option.bind_eq_bind, Option.bind_some, List.foldlM_append, hu, Option.bind_eq_bind, Option.bind_some,
      ih (fun u hu => h u (List.mem_cons_of_mem _ hu)), List.reverse_cons, List.append_assoc]
    rfl

theorem read_member {m : Option String × Json} (h : Parses m.2.tokens m.2) (stack : List Frame)
    (done : List (Option String × Json)) {e : Expected} (he : e = .firstName ∧ done = [] ∨ e = .name done) :
    (Token.scalar (.string m.1) :: .colon :: m.2.tokens).foldlM Parse.push? ⟨stack, e⟩ =
      some ⟨.object done m.1 :: stack, .follow m.2⟩ := by
  have hname : Parse.push? ⟨stack, e⟩ (.scalar (.string m.1)) = some ⟨stack, .colon done m.1⟩ := by
    rcases he with ⟨rfl, rfl⟩ | rfl <;> rfl
  have hcolon : Parse.push? ⟨stack, .colon done m.1⟩ .colon = some ⟨.object done m.1 :: stack, .value⟩ := rfl
  rw [List.foldlM_cons, hname, Option.bind_eq_bind, Option.bind_some, List.foldlM_cons, hcolon, Option.bind_eq_bind,
    Option.bind_some, h]

theorem read_members {rest : List (Option String × Json)} (h : ∀ m ∈ rest, Parses m.2.tokens m.2) (stack : List Frame)
    (done : List (Option String × Json)) (name : Option String) (v : Json) :
    ((rest.map fun m => Token.scalar (.string m.1) :: .colon :: tokens m.2).flatMap (Token.comma :: ·) ++
      [Token.closeObject]).foldlM Parse.push? ⟨.object done name :: stack, .follow v⟩ =
        some ⟨stack, .follow (.object (done.reverse ++ (name, v) :: rest))⟩ := by
  induction rest generalizing done name v with
  | nil => simp [Parse.push?, Parse.continue?]
  | cons m rest ih =>
    have hm := read_member (h m List.mem_cons_self) stack ((name, v) :: done) (Or.inr rfl)
    have hcomma : Parse.push? ⟨.object done name :: stack, .follow v⟩ .comma = some ⟨stack, .name ((name, v) :: done)⟩ :=
      rfl
    rw [List.map_cons, List.flatMap_cons, List.append_assoc, List.cons_append, List.foldlM_cons, hcomma,
      Option.bind_eq_bind, Option.bind_some, List.foldlM_append, hm, Option.bind_eq_bind, Option.bind_some,
      ih (fun m hm => h m (List.mem_cons_of_mem _ hm)), List.reverse_cons, List.append_assoc]
    rfl

namespace Readable
variable {v : Json}

theorem parses (h : Readable v) : Parses v.tokens v := by
  induction h with
  | null | bool | number | string => exact fun _ => rfl
  | @array items _ ih =>
    intro stack
    rw [tokens, itemTokens_eq]
    cases items with
    | nil => rfl
    | cons v rest =>
      have hfirst := (ih v List.mem_cons_self).firstItem (.array [] :: stack)
      have hopen : Parse.push? ⟨stack, .value⟩ .openArray = some ⟨.array [] :: stack, .firstItem⟩ := rfl
      rw [List.map_cons, listed, List.cons_append, List.foldlM_cons, hopen, Option.bind_eq_bind, Option.bind_some,
        List.append_assoc, List.foldlM_append, hfirst, Option.bind_eq_bind, Option.bind_some,
        read_items fun u hu => ih u (List.mem_cons_of_mem _ hu)]
      rfl
  | @object members _ _ ih =>
    intro stack
    rw [tokens, memberTokens_eq]
    cases members with
    | nil => rfl
    | cons m rest =>
      have hfirst := read_member (ih m List.mem_cons_self) stack [] (Or.inl ⟨rfl, rfl⟩)
      have hopen : Parse.push? ⟨stack, .value⟩ .openObject = some ⟨stack, .firstName⟩ := rfl
      rw [List.map_cons, listed, List.cons_append, List.foldlM_cons, hopen, Option.bind_eq_bind, Option.bind_some,
        List.append_assoc, List.foldlM_append, hfirst, Option.bind_eq_bind, Option.bind_some,
        read_members fun m hm => ih m (List.mem_cons_of_mem _ hm)]
      rfl

theorem ofText?_of_gives (h : Readable v) {cs : List Char} (hcs : Gives cs v.tokens) :
    ofText? (String.ofList cs) = some v := by
  obtain ⟨s, hs, holds⟩ := hcs []
  have htokens : tokens? (Text.utf8Encode cs) = some v.tokens := by
    rw [tokens?, show (Text.utf8Encode cs).foldlM Scan.push? ⟨[], .between⟩ = some s from hs]
    simp only [Option.bind_eq_bind, Option.bind_some]
    rw [holds]
    simp
  rw [ofText?, String.toList_ofList, ofBytes?, htokens, Option.bind_some, ofTokens?, h.parses]
  rfl

/-- A value is read back from both forms of its text. -/
theorem ofText?_compact (h : Readable v) : ofText? v.toCompactText = some v := h.ofText?_of_gives h.gives_compact

theorem ofText?_indented (h : Readable v) : ofText? v.toIndentedText = some v := h.ofText?_of_gives (h.gives_indented 0)

end Readable

end GridCatalog.Json
