import GridCatalog.Json.Token
import GridCatalog.Json.Writer

/-! Strings that are written and read.

    Every character is written as bytes that do not end the string, and what is read from these bytes is the character
    itself, whatever stands in front of them or behind them (`Stands`). -/

namespace GridCatalog

namespace Json

/-- Bytes inside a string that do not end it and stand for the given content. -/
structure Stands (bytes content : List UInt8) : Prop where
  scan (tokens : List Token) (done : List UInt8) :
    bytes.foldlM Scan.push? ⟨tokens, .quoted done⟩ = some ⟨tokens, .quoted (bytes.reverse ++ done)⟩
  parts : ∃ ps, (∀ rest, quotedParts? (bytes ++ rest) = (quotedParts? rest).map (ps ++ ·)) ∧
    ∀ qs, joinParts? (ps ++ qs) = (joinParts? qs).map (content ++ ·)

namespace Stands
variable {bytes bytes' content content' : List UInt8} {b e : UInt8}

theorem nil : Stands [] [] where
  scan _ _ := rfl
  parts := ⟨[], fun _ => by simp, fun _ => by simp⟩

theorem append (h : Stands bytes content) (h' : Stands bytes' content') :
    Stands (bytes ++ bytes') (content ++ content') where
  scan tokens done := by
    rw [List.foldlM_append, h.scan, List.reverse_append, List.append_assoc]
    exact h'.scan ..
  parts := by
    obtain ⟨ps, hparts, hjoin⟩ := h.parts
    obtain ⟨ps', hparts', hjoin'⟩ := h'.parts
    refine ⟨ps ++ ps', fun rest => ?_, fun qs => ?_⟩
    · rw [List.append_assoc, hparts, hparts', Option.map_map]
      exact congrArg (Option.map · _) (funext fun x => (List.append_assoc ..).symm)
    · rw [List.append_assoc, hjoin, hjoin', Option.map_map]
      exact congrArg (Option.map · _) (funext fun x => (List.append_assoc ..).symm)

theorem quotedParts?_byte (low : ¬b < 0x20) (plain : b ≠ backslash) (rest : List UInt8) :
    quotedParts? (b :: rest) = (quotedParts? rest).map (.byte b :: ·) := by
  cases rest with
  | nil => simp [quotedParts?, low, plain]
  | cons e rest =>
    rw [quotedParts?.eq_def]
    simp only [if_neg low, if_pos plain]

theorem push?_byte {tokens : List Token} {done : List UInt8} (plain : b ≠ backslash) (open' : Text.byteChar b ≠ '"') :
    Scan.push? ⟨tokens, .quoted done⟩ b = some ⟨tokens, .quoted (b :: done)⟩ := by
  simp only [Scan.push?, if_neg open', if_neg plain]

/-- A byte that is neither a control character nor a quote nor a backslash stands for itself. -/
theorem byte (low : ¬b < 0x20) (plain : b ≠ backslash) (open' : Text.byteChar b ≠ '"') : Stands [b] [b] where
  scan tokens done := by
    rw [List.foldlM_cons, push?_byte plain open']
    rfl
  parts := ⟨[.byte b], quotedParts?_byte low plain, fun qs => by rw [List.cons_append, List.nil_append, joinParts?]; rfl⟩

theorem ofBytes {bs : List UInt8}
    (h : ∀ b ∈ bs, 0x20 ≤ b.toNat ∧ Text.byteChar b ≠ '"' ∧ Text.byteChar b ≠ '\\') : Stands bs bs := by
  induction bs with
  | nil => exact nil
  | cons b bs ih =>
    obtain ⟨low, open', plain⟩ := h b List.mem_cons_self
    have first : Stands [b] [b] := by
      refine byte (by rw [UInt8.lt_iff_toNat_lt]; exact Nat.not_lt.mpr low) ?_ open'
      rintro rfl
      exact plain rfl
    exact first.append (ih fun b hb => h b (List.mem_cons_of_mem _ hb))

theorem push?_escape (tokens : List Token) (done : List UInt8) (e : UInt8) :
    [backslash, e].foldlM Scan.push? ⟨tokens, .quoted done⟩ = some ⟨tokens, .quoted ([backslash, e].reverse ++ done)⟩ := by
  rfl

theorem escaped (he : e ≠ unitMark) (hb : escaped? e = some b) : Stands [backslash, e] [b] where
  scan tokens done := push?_escape tokens done e
  parts := by
    refine ⟨[.byte b], fun rest => ?_, fun qs => ?_⟩
    · show quotedParts? (backslash :: e :: rest) = _
      have hlow : ¬backslash < 0x20 := by decide
      rw [quotedParts?.eq_def]
      simp only [if_neg hlow, ne_eq, not_true, if_false, if_pos he, hb]
      cases quotedParts? rest <;> rfl
    · rw [List.cons_append, List.nil_append, joinParts?]
      rfl

theorem hexDigit_byte {d : Nat} (hd : d < 16) :
    ∃ b : UInt8, String.utf8EncodeChar (hexDigit d) = [b] ∧ hexValue? b = some d ∧ b ≠ backslash ∧
      Text.byteChar b ≠ '"' := by
  refine ⟨UInt8.ofNat (hexDigit d).toNat, ?_⟩
  revert hd
  revert d
  decide

theorem joinParts?_codeUnit {n : Nat} (hn : n < 0x20) (qs : List QuotedPart) :
    joinParts? (.codeUnit n :: qs) = (joinParts? qs).map (Text.utf8Encode [Char.ofNat n] ++ ·) := by
  have hhigh : isHighSurrogate n = false := by
    rw [isHighSurrogate, Bool.and_eq_false_iff, decide_eq_false_iff_not]
    exact Or.inl (by omega)
  have hlow : isLowSurrogate n = false := by
    rw [isLowSurrogate, Bool.and_eq_false_iff, decide_eq_false_iff_not]
    exact Or.inl (by omega)
  cases qs with
  | nil => simp [joinParts?, hhigh, hlow]
  | cons q qs => cases q <;> simp [joinParts?, hhigh, hlow]

/-- A control character is written by its number. -/
theorem control {n : Nat} (hn : n < 0x20) :
    Stands (Text.utf8Encode ['\\', 'u', '0', '0', hexDigit (n / 16), hexDigit (n % 16)])
      (Text.utf8Encode [Char.ofNat n]) := by
  obtain ⟨c, hc, hcvalue, hcplain, hcopen⟩ := hexDigit_byte (d := n / 16) (by omega)
  obtain ⟨d, hd, hdvalue, hdplain, hdopen⟩ := hexDigit_byte (d := n % 16) (by omega)
  have hbytes : Text.utf8Encode ['\\', 'u', '0', '0', hexDigit (n / 16), hexDigit (n % 16)] =
      [backslash, unitMark, 0x30, 0x30, c, d] := by
    simp only [Text.utf8Encode, List.flatMap_cons, hc, hd]
    rfl
  have hunit : codeUnit? 0x30 0x30 c d = some n := by
    have hzero : hexValue? 0x30 = some 0 := by decide
    simp only [codeUnit?, hzero, hcvalue, hdvalue]
    show some ((0 * 16 + 0) * 256 + (n / 16 * 16 + n % 16)) = some n
    congr 1
    omega
  rw [hbytes]
  -- None of the six bytes ends the string, and together they are one unit.
  refine ⟨fun tokens done => ?_, [.codeUnit n], fun rest => ?_, joinParts?_codeUnit hn⟩
  · show [0x30, 0x30, c, d].foldlM Scan.push? ⟨tokens, .quoted (unitMark :: backslash :: done)⟩ = _
    simp only [List.foldlM_cons, push?_byte (b := 0x30) (by decide) (by decide), push?_byte hcplain hcopen,
      push?_byte hdplain hdopen, Option.bind_eq_bind, Option.bind_some]
    rfl
  · show quotedParts? (backslash :: unitMark :: 0x30 :: 0x30 :: c :: d :: rest) = _
    have hlow : ¬backslash < 0x20 := by decide
    rw [quotedParts?.eq_def]
    simp only [if_neg hlow, ne_eq, not_true, if_false, hunit]
    cases quotedParts? rest <;> rfl

theorem escape (c : Char) : Stands (Text.utf8Encode (escape c)) (String.utf8EncodeChar c) := by
  unfold Json.escape
  split
  · exact escaped (e := 0x22) (by decide) rfl
  · exact escaped (e := 0x5C) (by decide) rfl
  · exact escaped (e := 0x62) (by decide) rfl
  · exact escaped (e := 0x74) (by decide) rfl
  · exact escaped (e := 0x6E) (by decide) rfl
  · exact escaped (e := 0x66) (by decide) rfl
  · exact escaped (e := 0x72) (by decide) rfl
  rename_i notQuote notBackslash _ _ _ _ _
  split
  · rename_i hc
    have := control hc
    rwa [Char.ofNat_toNat, Text.utf8Encode_singleton] at this
  · rename_i hc
    show Stands (Text.utf8Encode [c]) _
    rw [Text.utf8Encode_singleton]
    refine ofBytes fun b hb => ?_
    by_cases hascii : c.toNat < 0x80
    · obtain ⟨b', hb', hnat, hchar⟩ := Text.utf8EncodeChar_of_ascii hascii
      obtain rfl : b = b' := by rwa [hb', List.mem_singleton] at hb
      exact ⟨by omega, fun h => notQuote (hchar.symm.trans h), fun h => notBackslash (hchar.symm.trans h)⟩
    · have hlarge := Text.le_of_mem_utf8EncodeChar (by omega) hb
      refine ⟨by omega, fun h => ?_, fun h => ?_⟩ <;>
      · have := congrArg Char.toNat h
        rw [Text.toNat_byteChar] at this
        simp at this
        omega

theorem text (s : List Char) : Stands (Text.utf8Encode (s.flatMap Json.escape)) (Text.utf8Encode s) := by
  induction s with
  | nil => exact nil
  | cons c s ih =>
    rw [List.flatMap_cons, Text.utf8Encode_append]
    exact (escape c).append ih

end Stands

/-- A string is read back from what stands between its quotes. -/
theorem unquote?_escape (s : String) :
    unquote? (Text.utf8Encode (s.toList.flatMap escape)) = some (.ofString s) := by
  obtain ⟨ps, hparts, hjoin⟩ := (Stands.text s.toList).parts
  have hparts := hparts []
  have hjoin := hjoin []
  rw [List.append_nil] at hparts hjoin
  rw [unquote?, hparts]
  simp [quotedParts?, joinParts?, hjoin, Text.utf8Decode?_utf8Encode, ofString]

end Json

end GridCatalog
