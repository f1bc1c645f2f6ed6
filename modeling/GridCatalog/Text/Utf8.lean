/-! Text as bytes in UTF-8. -/

namespace GridCatalog.Text

def utf8Encode (s : List Char) : List UInt8 := s.flatMap String.utf8EncodeChar

/-- The text that bytes stand for, if they stand for one. -/
def utf8Decode? (bytes : List UInt8) : Option (List Char) :=
  bytes.toByteArray.utf8Decode?.map Array.toList

/-- A text is read back from its bytes. -/
theorem utf8Decode?_utf8Encode (s : List Char) : utf8Decode? (utf8Encode s) = some s := by
  have h : (utf8Encode s).toByteArray = s.utf8Encode := rfl
  simp [utf8Decode?, h]

theorem utf8Encode_injective {s t : List Char} (h : utf8Encode s = utf8Encode t) : s = t :=
  Option.some.inj ((utf8Decode?_utf8Encode s).symm.trans (h ▸ utf8Decode?_utf8Encode t))

theorem utf8Encode_append (s t : List Char) : utf8Encode (s ++ t) = utf8Encode s ++ utf8Encode t :=
  List.flatMap_append

/-- The ASCII character of a byte below 128; a byte from 128 on gives one that is not ASCII. -/
def byteChar (b : UInt8) : Char := Char.ofNat b.toNat

/-! ### The bytes of characters -/

section
variable {b : UInt8} {c : Char}

theorem toNat_byteChar (b : UInt8) : (byteChar b).toNat = b.toNat := by
  have hb : b.toNat < 256 := b.toNat_lt
  have hvalid : b.toNat.isValidChar := Or.inl (by omega)
  rw [byteChar, Char.ofNat, dif_pos hvalid]
  rfl

theorem utf8Encode_singleton (c : Char) : utf8Encode [c] = String.utf8EncodeChar c := List.append_nil _

/-- A character of ASCII is written as one byte, which is read as that character. -/
theorem utf8EncodeChar_of_ascii (h : c.toNat < 0x80) :
    ∃ b : UInt8, String.utf8EncodeChar c = [b] ∧ b.toNat = c.toNat ∧ byteChar b = c := by
  have hsmall : c.val.toNat ≤ 127 := by
    show c.toNat ≤ 127
    omega
  have hnat : (UInt8.ofNat c.toNat).toNat = c.toNat := by
    rw [UInt8.toNat_ofNat']
    omega
  refine ⟨UInt8.ofNat c.toNat, ?_, hnat, ?_⟩
  · unfold String.utf8EncodeChar
    exact if_pos hsmall
  · rw [byteChar, hnat, Char.ofNat_toNat]

/-- The bytes of any other character are not of ASCII. -/
theorem le_of_mem_utf8EncodeChar (h : 0x80 ≤ c.toNat) (hb : b ∈ String.utf8EncodeChar c) : 0x80 ≤ b.toNat := by
  have hlarge : ¬c.val.toNat ≤ 127 := by
    show ¬c.toNat ≤ 127
    omega
  unfold String.utf8EncodeChar at hb
  dsimp only at hb
  rw [if_neg hlarge] at hb
  split at hb
  · simp only [List.mem_cons, List.not_mem_nil, or_false] at hb
    rcases hb with rfl | rfl <;> rw [UInt8.toNat_ofNat'] <;> omega
  split at hb <;>
  · simp only [List.mem_cons, List.not_mem_nil, or_false] at hb
    rcases hb with rfl | rfl | rfl | rfl <;> rw [UInt8.toNat_ofNat'] <;> omega

/-- A byte of ASCII in a text stands for a character of the text. -/
theorem byteChar_mem {s : List Char} (hb : b ∈ utf8Encode s) (low : b.toNat < 0x80) : byteChar b ∈ s := by
  obtain ⟨c, hc, hb⟩ := List.mem_flatMap.mp hb
  by_cases ascii : c.toNat < 0x80
  · obtain ⟨b', hbytes, -, hchar⟩ := utf8EncodeChar_of_ascii ascii
    rw [hbytes, List.mem_singleton] at hb
    rw [hb, hchar]
    exact hc
  · have := le_of_mem_utf8EncodeChar (Nat.not_lt.mp ascii) hb
    omega

end

end GridCatalog.Text
