import MapArchive.Bytes.Cursor
import MapArchive.Proofs.Text.Utf8

/-!
# Which bytes are text

The bytes that are read as text are those that a text is written as, and no others. As the writer
agrees with the standard encoding of characters, these are the bytes that are valid UTF-8.
-/

namespace MapArchive.Utf8

/-! ## The writer and the standard encoding -/

/-- A character is written in its standard encoding. -/
theorem encodeChar_eq (c : Char) : encodeChar c = String.utf8EncodeChar c := by
  have hvalid : c.toNat < 0xD800 ∨ 0xDFFF < c.toNat ∧ c.toNat < 0x110000 := c.valid
  have hval : c.val.toNat = c.toNat := rfl
  unfold encodeChar String.utf8EncodeChar
  simp only [hval]
  generalize c.toNat = n at hvalid
  by_cases hsingle : n < 0x80
  · rw [if_pos hsingle, if_pos (by omega)]
  by_cases hdouble : n < 0x800
  · rw [if_neg hsingle, if_pos hdouble, if_neg (by omega), if_pos (by omega),
      Nat.mod_eq_of_lt (show n / 64 < 32 by omega), Nat.add_comm 0xC0, Nat.add_comm 0x80]
  by_cases htriple : n < 0x10000
  · rw [if_neg hsingle, if_neg hdouble, if_pos htriple, if_neg (by omega), if_neg (by omega),
      if_pos (by omega), Nat.mod_eq_of_lt (show n / 4096 < 16 by omega), Nat.add_comm 0xE0,
      Nat.add_comm 0x80, Nat.add_comm 0x80]
  · rw [if_neg hsingle, if_neg hdouble, if_neg htriple, if_neg (by omega), if_neg (by omega),
      if_neg (by omega), Nat.mod_eq_of_lt (show n / 262144 < 8 by omega), Nat.add_comm 0xF0,
      Nat.add_comm 0x80, Nat.add_comm 0x80, Nat.add_comm 0x80]

/-- A text is written in its standard encoding. -/
theorem ofOctets_encode (text : List Char) : ofOctets (encode text) = text.utf8Encode := by
  have hencode : encode text = text.flatMap String.utf8EncodeChar := by
    rw [encode, funext encodeChar_eq]
  apply ByteArray.ext
  rw [hencode, List.utf8Encode, List.data_toByteArray, ofOctets]

/-! ## What is read as a character -/

/-- A number outside of the surrogates and below the limit is that of its character. -/
theorem toNat_ofNat {n : Nat} (h : n < 0xD800 ∨ 0xDFFF < n ∧ n < 0x110000) :
    (Char.ofNat n).toNat = n := by
  have hvalid : n.isValidChar := h
  rw [Char.ofNat, dif_pos hvalid]
  rfl

/-- A character below 0x80 has one byte. -/
theorem encodeChar_single {n : Nat} (h : n < 0x80) : encodeChar (Char.ofNat n) = [n.toUInt8] := by
  rw [encodeChar, toNat_ofNat (by omega)]
  exact if_pos h

/-- A character from 0x80 to 0x7FF has two bytes. -/
theorem encodeChar_double {k m : Nat} (hlow : 2 ≤ k) (hhigh : k < 32) (hm : m < 64) :
    encodeChar (Char.ofNat (k * 64 + m)) = [(0xC0 + k).toUInt8, (0x80 + m).toUInt8] := by
  rw [encodeChar, toNat_ofNat (by omega)]
  rw [if_neg (by omega), if_pos (by omega), show (k * 64 + m) / 64 = k by omega,
    show (k * 64 + m) % 64 = m by omega]

/-- A character from 0x800 to 0xFFFF, apart from the surrogates, has three bytes. -/
theorem encodeChar_triple {k l m : Nat} (hk : k < 16) (hl : l < 64) (hm : m < 64)
    (hlow : k = 0 → 32 ≤ l) (hhigh : k = 13 → l < 32) :
    encodeChar (Char.ofNat ((k * 64 + l) * 64 + m)) =
      [(0xE0 + k).toUInt8, (0x80 + l).toUInt8, (0x80 + m).toUInt8] := by
  rw [encodeChar, toNat_ofNat (by omega)]
  rw [if_neg (by omega), if_neg (by omega), if_pos (by omega),
    show ((k * 64 + l) * 64 + m) / 4096 = k by omega,
    show ((k * 64 + l) * 64 + m) / 64 % 64 = l by omega,
    show ((k * 64 + l) * 64 + m) % 64 = m by omega]

/-- A character from 0x10000 to 0x10FFFF has four bytes. -/
theorem encodeChar_quadruple {k l m n : Nat} (hk : k < 5) (hl : l < 64) (hm : m < 64) (hn : n < 64)
    (hlow : k = 0 → 16 ≤ l) (hhigh : k = 4 → l < 16) :
    encodeChar (Char.ofNat (((k * 64 + l) * 64 + m) * 64 + n)) =
      [(0xF0 + k).toUInt8, (0x80 + l).toUInt8, (0x80 + m).toUInt8, (0x80 + n).toUInt8] := by
  rw [encodeChar, toNat_ofNat (by omega)]
  rw [if_neg (by omega), if_neg (by omega), if_neg (by omega),
    show (((k * 64 + l) * 64 + m) * 64 + n) / 262144 = k by omega,
    show (((k * 64 + l) * 64 + m) * 64 + n) / 4096 % 64 = l by omega,
    show (((k * 64 + l) * 64 + m) * 64 + n) / 64 % 64 = m by omega,
    show (((k * 64 + l) * 64 + m) * 64 + n) % 64 = n by omega]

/-- The first bytes that are accepted: that of a whole character and those of two, three and four
bytes. -/
theorem start_cases {b : UInt8} {progress : Progress} (h : start b = .ok progress) :
    (∃ n < 0x80, b = n.toUInt8 ∧ progress = .char (Char.ofNat n)) ∨
    (∃ k, 2 ≤ k ∧ k < 32 ∧ b = (0xC0 + k).toUInt8 ∧ progress = .more ⟨0, 0x80, 0xBF, k⟩) ∨
    (∃ k < 16, b = (0xE0 + k).toUInt8 ∧ progress =
      .more ⟨1, if k = 0 then 0xA0 else 0x80, if k = 13 then 0x9F else 0xBF, k⟩) ∨
    ∃ k < 5, b = (0xF0 + k).toUInt8 ∧ progress =
      .more ⟨2, if k = 0 then 0x90 else 0x80, if k = 4 then 0x8F else 0xBF, k⟩ := by
  obtain ⟨n, hn, rfl⟩ : ∃ n < 256, b = n.toUInt8 := ⟨b.toNat, b.toNat_lt, by simp⟩
  by_cases hsingle : n < 0x80
  · rw [start_single hsingle] at h
    exact .inl ⟨n, hsingle, rfl, (Except.ok.inj h).symm⟩
  by_cases hdouble : 0xC2 ≤ n ∧ n < 0xE0
  · obtain ⟨k, rfl⟩ := Nat.exists_eq_add_of_le (show 0xC0 ≤ n by omega)
    rw [start_double (by omega) (by omega)] at h
    exact .inr (.inl ⟨k, by omega, by omega, rfl, (Except.ok.inj h).symm⟩)
  by_cases htriple : 0xE0 ≤ n ∧ n < 0xF0
  · obtain ⟨k, rfl⟩ := Nat.exists_eq_add_of_le htriple.1
    rw [start_triple (by omega)] at h
    exact .inr (.inr (.inl ⟨k, by omega, rfl, (Except.ok.inj h).symm⟩))
  by_cases hquadruple : 0xF0 ≤ n ∧ n < 0xF5
  · obtain ⟨k, rfl⟩ := Nat.exists_eq_add_of_le hquadruple.1
    rw [start_quadruple (by omega)] at h
    exact .inr (.inr (.inr ⟨k, by omega, rfl, (Except.ok.inj h).symm⟩))
  -- No other byte can stand first.
  simp only [start, UInt8.lt_iff_toNat_lt, toNat_toUInt8 hn, UInt8.reduceToNat] at h
  grind

/-- A later byte that is accepted lies between the bounds. -/
theorem step_cases {owed bits : Nat} {low high b : UInt8} {progress : Progress}
    (h : Pending.step ⟨owed, low, high, bits⟩ b = .ok progress) (hlow : 0x80 ≤ low.toNat)
    (hhigh : high.toNat ≤ 0xBF) :
    ∃ m < 64, b = (0x80 + m).toUInt8 ∧ low.toNat ≤ 0x80 + m ∧ 0x80 + m ≤ high.toNat ∧
      progress = match owed with
        | 0 => .char (Char.ofNat (bits * 64 + m))
        | owed + 1 => .more ⟨owed, 0x80, 0xBF, bits * 64 + m⟩ := by
  obtain ⟨n, hn, rfl⟩ : ∃ n < 256, b = n.toUInt8 := ⟨b.toNat, b.toNat_lt, by simp⟩
  by_cases hbounds : low.toNat ≤ n ∧ n ≤ high.toNat
  · obtain ⟨m, rfl⟩ := Nat.exists_eq_add_of_le (show 0x80 ≤ n by omega)
    have hm : m < 64 := by omega
    rw [step_ok hm hbounds.1 hbounds.2] at h
    refine ⟨m, hm, rfl, hbounds.1, hbounds.2, ?_⟩
    cases owed <;> exact (Except.ok.inj h).symm
  · have hrefused : ¬(low ≤ n.toUInt8 ∧ n.toUInt8 ≤ high) := by
      simpa only [UInt8.le_iff_toNat_le, toNat_toUInt8 hn] using hbounds
    rw [Pending.step, if_neg hrefused] at h
    cases h

/-- Where a character has been begun, another byte follows that is accepted. -/
theorem exists_step {seen text : List Char} {p : Pending} {bytes : List UInt8}
    (h : decodeOnto seen (some p) bytes = .ok text) :
    ∃ b rest, bytes = b :: rest ∧
      ((∃ c, p.step b = .ok (.char c) ∧ decodeOnto (c :: seen) none rest = .ok text) ∨
        ∃ q, p.step b = .ok (.more q) ∧ decodeOnto seen (some q) rest = .ok text) := by
  cases bytes with
  | nil => cases h
  | cons b rest =>
    rw [decodeOnto] at h
    split at h
    case h_1 c hstep => exact ⟨b, rest, rfl, .inl ⟨c, hstep, h⟩⟩
    case h_2 q hstep => exact ⟨b, rest, rfl, .inr ⟨q, hstep, h⟩⟩
    case h_3 => cases h

/-- The last byte of a character. -/
theorem exists_last {seen text : List Char} {bits : Nat} {low high : UInt8} {bytes : List UInt8}
    (h : decodeOnto seen (some ⟨0, low, high, bits⟩) bytes = .ok text) (hlow : 0x80 ≤ low.toNat)
    (hhigh : high.toNat ≤ 0xBF) :
    ∃ m < 64, ∃ rest, bytes = (0x80 + m).toUInt8 :: rest ∧ low.toNat ≤ 0x80 + m ∧
      0x80 + m ≤ high.toNat ∧
      decodeOnto (Char.ofNat (bits * 64 + m) :: seen) none rest = .ok text := by
  obtain ⟨b, rest, rfl, ⟨c, hstep, hrest⟩ | ⟨q, hstep, -⟩⟩ := exists_step h
  · obtain ⟨m, hm, rfl, hle, hge, hprogress⟩ := step_cases hstep hlow hhigh
    cases hprogress
    exact ⟨m, hm, rest, rfl, hle, hge, hrest⟩
  · obtain ⟨m, -, -, -, -, hprogress⟩ := step_cases hstep hlow hhigh
    cases hprogress

/-- A later byte of a character that is not the last one. -/
theorem exists_more {seen text : List Char} {owed bits : Nat} {low high : UInt8}
    {bytes : List UInt8} (h : decodeOnto seen (some ⟨owed + 1, low, high, bits⟩) bytes = .ok text)
    (hlow : 0x80 ≤ low.toNat) (hhigh : high.toNat ≤ 0xBF) :
    ∃ m < 64, ∃ rest, bytes = (0x80 + m).toUInt8 :: rest ∧ low.toNat ≤ 0x80 + m ∧
      0x80 + m ≤ high.toNat ∧
      decodeOnto seen (some ⟨owed, 0x80, 0xBF, bits * 64 + m⟩) rest = .ok text := by
  obtain ⟨b, rest, rfl, ⟨c, hstep, -⟩ | ⟨q, hstep, hrest⟩⟩ := exists_step h
  · obtain ⟨m, -, -, -, -, hprogress⟩ := step_cases hstep hlow hhigh
    cases hprogress
  · obtain ⟨m, hm, rfl, hle, hge, hprogress⟩ := step_cases hstep hlow hhigh
    cases hprogress
    exact ⟨m, hm, rest, rfl, hle, hge, hrest⟩

/-- Bytes that are read as characters start with those of the first one. -/
theorem exists_encodeChar {seen text : List Char} {b : UInt8} {bytes : List UInt8}
    (h : decodeOnto seen none (b :: bytes) = .ok text) :
    ∃ c rest, b :: bytes = encodeChar c ++ rest ∧ rest.length ≤ bytes.length ∧
      decodeOnto (c :: seen) none rest = .ok text := by
  rw [decodeOnto] at h
  split at h
  case h_1 c hstart =>
    obtain ⟨n, hn, rfl, hchar⟩ | ⟨k, -, -, -, hmore⟩ | ⟨k, -, -, hmore⟩ | ⟨k, -, -, hmore⟩ :=
      start_cases hstart
    · cases hchar
      exact ⟨_, bytes, by rw [encodeChar_single hn]; rfl, Nat.le_refl _, h⟩
    all_goals cases hmore
  case h_2 p hstart =>
    obtain ⟨n, -, -, hchar⟩ | ⟨k, hlow, hhigh, rfl, hp⟩ | ⟨k, hk, rfl, hp⟩ | ⟨k, hk, rfl, hp⟩ :=
      start_cases hstart
    · cases hchar
    · cases hp
      obtain ⟨m, hm, rest, rfl, -, -, h⟩ := exists_last h (by decide) (by decide)
      exact ⟨_, rest, by rw [encodeChar_double hlow hhigh hm]; rfl, by simp, h⟩
    · cases hp
      obtain ⟨l, hl, rest, rfl, hleast, hgreatest, h⟩ :=
        exists_more h (by split <;> decide) (by split <;> decide)
      obtain ⟨m, hm, rest, rfl, -, -, h⟩ := exists_last h (by decide) (by decide)
      have hlow : k = 0 → 32 ≤ l := by
        rintro rfl
        simp at hleast
        omega
      have hhigh : k = 13 → l < 32 := by
        rintro rfl
        simp at hgreatest
        omega
      exact ⟨_, rest, by rw [encodeChar_triple hk hl hm hlow hhigh]; rfl, by simp; omega, h⟩
    · cases hp
      obtain ⟨l, hl, rest, rfl, hleast, hgreatest, h⟩ :=
        exists_more h (by split <;> decide) (by split <;> decide)
      obtain ⟨m, hm, rest, rfl, -, -, h⟩ := exists_more h (by decide) (by decide)
      obtain ⟨n, hn, rest, rfl, -, -, h⟩ := exists_last h (by decide) (by decide)
      have hlow : k = 0 → 16 ≤ l := by
        rintro rfl
        simp at hleast
        omega
      have hhigh : k = 4 → l < 16 := by
        rintro rfl
        simp at hgreatest
        omega
      exact ⟨_, rest, by rw [encodeChar_quadruple hk hl hm hn hlow hhigh]; rfl, by simp; omega, h⟩
  case h_3 => cases h

/-- Bytes are read as a text if they are those it is written as, and not otherwise. -/
theorem decodeOnto_sound {seen text : List Char} {bytes : List UInt8}
    (h : decodeOnto seen none bytes = .ok text) :
    ∃ tail, text = seen.reverse ++ tail ∧ bytes = encode tail := by
  match bytes with
  | [] =>
    cases h
    exact ⟨[], by simp, rfl⟩
  | b :: bytes =>
    obtain ⟨c, rest, hbytes, hlength, hrest⟩ := exists_encodeChar h
    obtain ⟨tail, rfl, rfl⟩ := decodeOnto_sound hrest
    exact ⟨c :: tail, by simp, hbytes⟩
termination_by bytes.length

/-- Bytes are read as the text that they are the encoding of, and as no other. -/
theorem decode_eq_ok_iff {bytes : List UInt8} {text : List Char} :
    decode bytes = .ok text ↔ bytes = encode text := by
  refine ⟨fun h => ?_, fun h => by rw [h, decode_encode]⟩
  obtain ⟨tail, rfl, hbytes⟩ := decodeOnto_sound h
  simpa using hbytes

/-- A byte string is read as the text that it is the standard encoding of, and as no other. -/
theorem decode_octets_eq_ok_iff {bytes : ByteArray} {text : List Char} :
    decode (octets bytes) = .ok text ↔ bytes = text.utf8Encode := by
  rw [decode_eq_ok_iff, ← ofOctets_encode]
  exact ⟨fun h => by rw [← h, ofOctets_octets], fun h => by rw [h, octets_ofOctets]⟩

/-- A byte string that is refused is no valid UTF-8. -/
theorem not_isValidUTF8_of_error {bytes : ByteArray} {fault : Fault}
    (h : decode (octets bytes) = .error fault) : ¬bytes.IsValidUTF8 := by
  rintro ⟨text, htext⟩
  rw [decode_octets_eq_ok_iff.mpr htext] at h
  cases h

end MapArchive.Utf8
