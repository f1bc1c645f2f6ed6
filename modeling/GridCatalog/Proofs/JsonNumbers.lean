import GridCatalog.Proofs.Doubles
import GridCatalog.Proofs.JsonText

/-! Numbers that are written and read.

    The text of a number is one word. An integer of 64 bits is always read back from it; a double is if the text alone
    is read back, whatever stands around it. Of whatever is read, every number is finite (`Finite.of_bytes`): the
    tokens hold no other numbers, and the parser only arranges what they hold. -/

namespace GridCatalog.Json

/-! ### The characters of numbers -/

theorem isWordChar_digit {c : Char} (h : c.isDigit = true) : isWordChar c = true := by
  have all : ∀ n < 58, 48 ≤ n → isWordChar (Char.ofNat n) = true := by decide
  rw [Char.isDigit, Bool.and_eq_true, decide_eq_true_eq, decide_eq_true_eq] at h
  have := all c.toNat (Nat.lt_succ_of_le h.2) h.1
  rwa [Char.ofNat_toNat] at this

theorem isWordChar_digits {n : Nat} : ∀ c ∈ Text.digits n, isWordChar c = true := fun _ hc =>
  isWordChar_digit (Nat.isDigit_of_mem_toDigits (by decide) (by decide) hc)

theorem isWordChar_intText (n : Int) : ∀ c ∈ (Text.intText n).toList, isWordChar c = true := by
  intro c hc
  cases n with
  | ofNat n =>
    rw [Text.intText, Text.natText, String.toList_ofList] at hc
    exact isWordChar_digits c hc
  | negSucc n =>
    rw [Text.intText, String.toList_ofList] at hc
    rcases List.mem_cons.mp hc with rfl | hc
    · rfl
    · exact isWordChar_digits c hc

open Decimal in
theorem isWordChar_decimalText (d : Decimal) : ∀ c ∈ (recordLayout.decimalText d).toList, isWordChar c = true := by
  have zeros (n : Nat) : ∀ c ∈ List.replicate n '0', isWordChar c = true := fun c hc => by
    rw [(List.mem_replicate.mp hc).2]
    rfl
  have ds := @isWordChar_digits d.digits
  generalize hds : Text.digits d.digits = s at ds
  unfold Layout.decimalText
  rw [hds]
  dsimp only
  split
  · unfold positionalText
    dsimp only
    split
    · simp only [String.toList_append, String.toList_ofList, List.forall_mem_append]
      exact ⟨⟨ds, zeros _⟩, List.all_eq_true.mp rfl⟩
    split
    · simp only [String.toList_ofList, List.forall_mem_append, List.forall_mem_cons]
      exact ⟨fun c hc => ds c (List.mem_of_mem_take hc), rfl, fun c hc => ds c (List.mem_of_mem_drop hc)⟩
    · simp only [String.toList_ofList, List.forall_mem_append, List.forall_mem_cons]
      exact ⟨⟨rfl, rfl, zeros _⟩, ds⟩
  · unfold scientificText
    simp only [String.toList_ofList, List.forall_mem_append, List.forall_mem_cons]
    refine ⟨?_, rfl, ?_, isWordChar_digits⟩
    · split
      · exact ds
      · exact ds
      · simp only [List.forall_mem_cons] at ds ⊢
        exact ⟨ds.1, rfl, ds.2⟩
    · split <;> rfl

open Decimal in
theorem isWordChar_numberText (n : Number) : ∀ c ∈ numberText n, isWordChar c = true := by
  cases n with
  | integer n => exact isWordChar_intText n
  | double x =>
    have sign : ∀ c ∈ (if isNegative x then "-" else "").toList, isWordChar c = true := by
      split <;> exact List.all_eq_true.mp rfl
    rw [numberText]
    split
    · unfold Layout.text
      split
      · exact List.all_eq_true.mp rfl
      dsimp only
      split
      · rw [String.toList_append, List.forall_mem_append]
        exact ⟨sign, List.all_eq_true.mp rfl⟩
      split
      · rw [String.toList_append, String.toList_append, List.forall_mem_append, List.forall_mem_append]
        exact ⟨⟨sign, List.all_eq_true.mp rfl⟩, List.all_eq_true.mp rfl⟩
      · rw [String.toList_append, List.forall_mem_append]
        exact ⟨sign, isWordChar_decimalText _⟩
    · exact List.all_eq_true.mp rfl

/-! ### Words of numbers -/

/-- A text that is one word stands for what the word stands for. -/
theorem ofText?_word {w : List Char} (hw : ∀ c ∈ w, isWordChar c = true) : ofText? (String.ofList w) = wordValue? w := by
  rw [ofText?, String.toList_ofList, ofBytes?]
  by_cases hne : w = []
  · subst hne
    rfl
  · rw [tokens?, show (Text.utf8Encode w).foldlM Scan.push? ⟨[], .between⟩ = some ⟨[], .word w.reverse⟩ from
      read?_word_between hw hne]
    simp only [Option.bind_eq_bind, Option.bind_some, Scan.endWord?, List.reverse_reverse]
    cases wordValue? w <;> rfl

theorem wordValue?_cons {c : Char} (hc : c ∉ ['n', 't', 'f']) (w : List Char) :
    wordValue? (c :: w) = (numberParts? (c :: w)).map fun parts => .number parts.value? := by
  have first {x : String} (h : String.ofList (c :: w) = x) : c ∈ x.toList.head? := by
    rw [← h, String.toList_ofList]
    rfl
  unfold wordValue?
  split
  · exact absurd (first ‹_›) (by rintro ⟨⟩; exact hc (by decide))
  · exact absurd (first ‹_›) (by rintro ⟨⟩; exact hc (by decide))
  · exact absurd (first ‹_›) (by rintro ⟨⟩; exact hc (by decide))
  · rfl

/-- Only zero starts with a zero. -/
theorem digits_eq_zero_cons {n : Nat} {rest : List Char} (h : Text.digits n = '0' :: rest) : rest = [] := by
  induction n using Nat.strongRecOn generalizing rest with
  | ind n ih =>
    rw [Text.digits, Nat.toDigits_eq_if (by decide)] at h
    split at h
    · exact (List.cons.inj h).2.symm
    · obtain ⟨c, ds, hds⟩ := List.exists_cons_of_ne_nil (Text.digits_ne_nil (n / 10))
      have hc : c = '0' := by
        rw [← Text.digits, hds] at h
        exact (List.cons.inj h).1
      rw [hc] at hds
      obtain rfl := ih (n / 10) (by omega) hds
      have := Text.ofDigitChars_digits (n / 10)
      rw [hds, show Nat.ofDigitChars 10 ['0'] 0 = 0 from rfl] at this
      omega

theorem numberParts?_digits (n : Nat) :
    numberParts? (Text.digits n) = some ⟨false, Text.digits n, none, none⟩ ∧
      numberParts? ('-' :: Text.digits n) = some ⟨true, Text.digits n, none, none⟩ := by
  have hds : ∀ c ∈ Text.digits n, c.isDigit = true := fun c hc =>
    Nat.isDigit_of_mem_toDigits (by decide) (by decide) hc
  have hzero := @digits_eq_zero_cons n
  have hne := Text.digits_ne_nil n
  generalize Text.digits n = ds at hds hzero hne
  have htake : ds.takeWhile Char.isDigit = ds := by
    have : (ds ++ []).takeWhile Char.isDigit = ds ++ [].takeWhile Char.isDigit := List.takeWhile_append_of_pos hds
    rwa [List.append_nil, List.takeWhile_nil, List.append_nil] at this
  have hdrop : ds.dropWhile Char.isDigit = [] := by
    have : (ds ++ []).dropWhile Char.isDigit = [].dropWhile Char.isDigit := List.dropWhile_append_of_pos hds
    rwa [List.append_nil, List.dropWhile_nil] at this
  -- A digit is not a sign, and no zero stands in front of other digits.
  constructor <;> unfold numberParts? <;> split <;> rename_i sign
  case' h_1 => split at sign
  · exact absurd (hds '-' List.mem_cons_self) (by decide)
  all_goals
    cases sign
    rw [htake, hdrop]
    dsimp only
    split
    · exact absurd rfl hne
    · cases hzero rfl
    · rfl

theorem digit_notMem {c : Char} (h : c.isDigit = true) : c ∉ ['n', 't', 'f'] := by
  rintro hc
  simp only [List.mem_cons, List.not_mem_nil, or_false] at hc
  rcases hc with rfl | rfl | rfl <;> cases h

/-- An integer of 64 bits is read back. -/
theorem wordValue?_intText {n : Int} (low : -(Text.intBound64 : Int) ≤ n) (high : n < Text.natBound64) :
    wordValue? (Text.intText n).toList = some (.number (some (.integer n))) := by
  cases n with
  | ofNat n =>
    have value : (⟨false, Text.digits n, none, none⟩ : NumberParts).value? = some (.integer n) := by
      have high : n < Text.natBound64 := Int.ofNat_lt.mp high
      simp [NumberParts.value?, Text.ofDigitChars_digits, high]
    obtain ⟨c, ds, hds⟩ := List.exists_cons_of_ne_nil (Text.digits_ne_nil n)
    have hmem : c ∈ Nat.toDigits 10 n := by
      rw [← Text.digits, hds]
      exact List.mem_cons_self
    have hc : c.isDigit = true := Nat.isDigit_of_mem_toDigits (by decide) (by decide) hmem
    rw [Text.intText, Text.natText, String.toList_ofList, hds, wordValue?_cons (digit_notMem hc), ← hds,
      (numberParts?_digits n).1, Option.map_some, value]
    rfl
  | negSucc n =>
    have value : (⟨true, Text.digits (n + 1), none, none⟩ : NumberParts).value? = some (.integer (.negSucc n)) := by
      have low : n + 1 ≤ Text.intBound64 := by omega
      have inRange : (decide (0 < n + 1) && decide (n + 1 ≤ Text.intBound64)) = true := by simp [low]
      unfold NumberParts.value?
      simp only [Option.isSome_none, Bool.or_self, Text.ofDigitChars_digits, Bool.false_eq_true, ↓reduceIte, inRange]
      rfl
    rw [Text.intText, String.toList_ofList, wordValue?_cons (by decide), (numberParts?_digits (n + 1)).2,
      Option.map_some, value]

theorem readable_integer {n : Int} (low : -(Text.intBound64 : Int) ≤ n) (high : n < Text.natBound64) :
    Readable (.ofInt n) :=
  .number (isWordChar_numberText _) (wordValue?_intText low high)

/-- A double whose own text is read back is read back from any text. -/
theorem readable_double {x : Float} (hx : x.isFinite = true) (h : ofText? (ofFloat x).toCompactText = some (ofFloat x)) :
    Readable (ofFloat x) := by
  rw [ofFloat, if_pos hx] at h ⊢
  exact .number (isWordChar_numberText _) ((ofText?_word (isWordChar_numberText _)).symm.trans h)

/-! ### Numbers that are read -/

/-- Every number of a value is finite. -/
inductive Finite : Json → Prop
  | null : Finite .null
  | bool (b : Bool) : Finite (.bool b)
  | number {content : Option Number} (h : ∀ n, content = some n → n.Finite) : Finite (.number content)
  | string (content : Option String) : Finite (.string content)
  | array {items : List Json} (values : ∀ v ∈ items, Finite v) : Finite (.array items)
  | object {members : List (Option String × Json)} (values : ∀ m ∈ members, Finite m.2) : Finite (.object members)

theorem Finite.of_wordValue? {w : List Char} {v : Json} (h : wordValue? w = some v) : v.Finite := by
  unfold wordValue? at h
  split at h
  · cases h; exact .null
  · cases h; exact .bool true
  · cases h; exact .bool false
  · obtain ⟨parts, -, rfl⟩ := Option.map_eq_some_iff.mp h
    exact .number fun n hn => NumberParts.finite_value? hn

def Token.Finite : Token → Prop
  | .scalar v => v.Finite
  | _ => True

def Scan.Finite (s : Scan) : Prop := ∀ t ∈ s.tokens, t.Finite

variable {s s' : Scan}

theorem Scan.Finite.push (h : s.Finite) {t : Token} (ht : t.Finite) {r : Reading} : Scan.Finite ⟨t :: s.tokens, r⟩ :=
  List.forall_mem_cons.mpr ⟨ht, h⟩

theorem finite_of_mark {c : Char} {t : Token} (h : Token.ofMark? c = some t) : t.Finite := by
  unfold Token.ofMark? at h
  split at h <;> cases h <;> trivial

theorem Scan.Finite.endWord? (h : s.Finite) (hs : s.endWord? = some s') : s'.Finite := by
  unfold Scan.endWord? at hs
  split at hs
  · obtain ⟨v, hv, rfl⟩ := Option.map_eq_some_iff.mp hs
    exact h.push (t := .scalar v) (.of_wordValue? hv)
  · cases hs
    exact h

theorem Scan.Finite.push? (h : s.Finite) {b : UInt8} (hs : s.push? b = some s') : s'.Finite := by
  unfold Scan.push? at hs
  split at hs
  · split at hs
    · obtain ⟨v, hv, rfl⟩ := Option.map_eq_some_iff.mp hs
      obtain ⟨_, -, rfl⟩ := Option.map_eq_some_iff.mp hv
      exact h.push (t := .scalar _) (.string _)
    split at hs <;> cases hs <;> exact h
  · cases hs
    exact h
  unfold Scan.pushOutside? at hs
  dsimp only at hs
  split at hs
  · obtain ⟨e, he, rfl⟩ := Option.map_eq_some_iff.mp hs
    exact (h.endWord? he).push (finite_of_mark ‹_›)
  split at hs
  · exact h.endWord? hs
  split at hs
  · obtain ⟨e, he, rfl⟩ := Option.map_eq_some_iff.mp hs
    exact fun t ht => h.endWord? he t ht
  split at hs <;> cases hs <;> exact h

theorem foldlM_keeps {σ α : Type} {f : σ → α → Option σ} {P : σ → Prop} {Q : α → Prop}
    (step : ∀ {s a s'}, P s → Q a → f s a = some s' → P s') :
    ∀ {l : List α} {s s' : σ}, P s → (∀ a ∈ l, Q a) → l.foldlM f s = some s' → P s'
  | [], _, _, hs, _, h => by
    cases h
    exact hs
  | a :: l, s, s', hs, hl, h => by
    rw [List.foldlM_cons] at h
    obtain ⟨s₁, hs₁, h⟩ := Option.bind_eq_some_iff.mp h
    exact foldlM_keeps step (step hs (hl a List.mem_cons_self) hs₁) (fun a ha => hl a (List.mem_cons_of_mem _ ha)) h

theorem finite_tokens? {bytes : List UInt8} {ts : List Token} (h : tokens? bytes = some ts) : ∀ t ∈ ts, t.Finite := by
  unfold tokens? at h
  obtain ⟨s, hs, h⟩ := Option.bind_eq_some_iff.mp h
  obtain ⟨e, he, h⟩ := Option.bind_eq_some_iff.mp h
  have start : Scan.Finite ⟨[], .between⟩ := fun t ht => by cases ht
  have run : s.Finite := foldlM_keeps (Q := fun _ => True) (fun h _ => h.push?) start (fun _ _ => trivial) hs
  split at h
  · cases h
    exact fun t ht => run.endWord? he t (List.mem_reverse.mp ht)
  · cases h

/-! ### Values that are read -/

def Frame.Finite : Frame → Prop
  | .array done => ∀ v ∈ done, v.Finite
  | .object done _ => ∀ m ∈ done, m.2.Finite

def Expected.Finite : Expected → Prop
  | .name done | .colon done _ => ∀ m ∈ done, m.2.Finite
  | .follow v => v.Finite
  | _ => True

structure Parse.Finite (p : Parse) : Prop where
  stack : ∀ f ∈ p.stack, f.Finite
  expected : p.expected.Finite

variable {p p' : Parse} {stack : List Frame} {t : Token}

namespace Parse.Finite

theorem beginValue? (h : ∀ f ∈ stack, f.Finite) (ht : t.Finite) (hp : Parse.beginValue? stack t = some p) : p.Finite := by
  cases t <;> cases hp
  · exact ⟨List.forall_mem_cons.mpr ⟨(fun v hv => by cases hv), h⟩, trivial⟩
  · exact ⟨h, trivial⟩
  · exact ⟨h, ht⟩

theorem beginMember? {done : List (Option String × Json)} (h : ∀ f ∈ stack, f.Finite) (hdone : ∀ m ∈ done, m.2.Finite)
    (hp : Parse.beginMember? stack done t = some p) : p.Finite := by
  unfold Parse.beginMember? at hp
  split at hp <;> cases hp
  exact ⟨h, hdone⟩

theorem continue? {v : Json} (h : ∀ f ∈ stack, f.Finite) (hv : v.Finite) (hp : Parse.continue? stack v t = some p) :
    p.Finite := by
  unfold Parse.continue? at hp
  split at hp <;> cases hp
  · obtain ⟨hdone, hstack⟩ := List.forall_mem_cons.mp h
    exact ⟨List.forall_mem_cons.mpr ⟨List.forall_mem_cons.mpr ⟨hv, hdone⟩, hstack⟩, trivial⟩
  · obtain ⟨hdone, hstack⟩ := List.forall_mem_cons.mp h
    have all := List.forall_mem_cons.mpr ⟨hv, hdone⟩
    exact ⟨hstack, .array fun u hu => all u (List.mem_reverse.mp hu)⟩
  · obtain ⟨hdone, hstack⟩ := List.forall_mem_cons.mp h
    exact ⟨hstack, List.forall_mem_cons.mpr ⟨hv, hdone⟩⟩
  · obtain ⟨hdone, hstack⟩ := List.forall_mem_cons.mp h
    refine ⟨hstack, .object fun m hm => ?_⟩
    rcases List.mem_cons.mp (List.mem_reverse.mp hm) with rfl | hm
    · exact hv
    · exact hdone m hm

theorem push? (h : p.Finite) (ht : t.Finite) (hp : p.push? t = some p') : p'.Finite := by
  obtain ⟨stack, expected⟩ := p
  obtain ⟨hstack, hexpected⟩ := h
  have noMembers : ∀ m ∈ ([] : List (Option String × Json)), m.2.Finite := fun m hm => by cases hm
  cases expected with
  | value => exact beginValue? hstack ht hp
  | firstItem =>
    cases t with
    | closeArray =>
      cases hp
      exact ⟨fun f hf => hstack f (List.mem_of_mem_drop hf), .array fun v hv => by cases hv⟩
    | _ => exact beginValue? hstack ht hp
  | firstName =>
    cases t with
    | closeObject =>
      cases hp
      exact ⟨hstack, .object noMembers⟩
    | scalar v => exact beginMember? (t := .scalar v) hstack noMembers hp
    | _ => cases hp
  | name done => exact beginMember? hstack hexpected hp
  | colon done name =>
    cases t <;> cases hp
    exact ⟨List.forall_mem_cons.mpr ⟨hexpected, hstack⟩, trivial⟩
  | follow v => exact continue? hstack hexpected hp

end Parse.Finite

theorem Finite.of_bytes {bytes : List UInt8} {v : Json} (h : ofBytes? bytes = some v) : v.Finite := by
  obtain ⟨ts, hts, h⟩ := Option.bind_eq_some_iff.mp h
  unfold ofTokens? at h
  obtain ⟨p, hp, h⟩ := Option.bind_eq_some_iff.mp h
  have start : Parse.Finite ⟨[], .value⟩ := ⟨(fun f hf => by cases hf), trivial⟩
  have run : p.Finite := foldlM_keeps Parse.Finite.push? start (finite_tokens? hts) hp
  split at h
  · cases h
    exact run.expected
  · cases h

end GridCatalog.Json
