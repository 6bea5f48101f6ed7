import MapArchive.Text.Utf8

/-!
# Reading what was written: text

The bytes of a text are read back as the text. A character is written in one to four bytes; the
first of them tells how many there are, and the least and the greatest second byte are those that a
number of the right size can have.
-/

namespace MapArchive.Utf8

/-- A number below 256 is kept by a byte. -/
theorem toNat_toUInt8 {n : Nat} (h : n < 256) : n.toUInt8.toNat = n := by
  simp
  omega

/-- A byte below 80 is a character. -/
theorem start_single {n : Nat} (h : n < 0x80) : start n.toUInt8 = .ok (.char (Char.ofNat n)) := by
  have hn := toNat_toUInt8 (show n < 256 by omega)
  simp only [start, UInt8.lt_iff_toNat_lt, hn, UInt8.reduceToNat]
  rw [if_pos h]

/-- The first of two bytes. -/
theorem start_double {k : Nat} (hlow : 2 ≤ k) (hhigh : k < 32) :
    start (0xC0 + k).toUInt8 = .ok (.more ⟨0, 0x80, 0xBF, k⟩) := by
  have hk := toNat_toUInt8 (show 0xC0 + k < 256 by omega)
  simp only [start, UInt8.lt_iff_toNat_lt, hk, UInt8.reduceToNat]
  rw [if_neg (by omega), if_neg (by omega), if_pos (by omega), Nat.add_sub_cancel_left]

/-- The first of three bytes. -/
theorem start_triple {k : Nat} (h : k < 16) :
    start (0xE0 + k).toUInt8 =
      .ok (.more ⟨1, if k = 0 then 0xA0 else 0x80, if k = 13 then 0x9F else 0xBF, k⟩) := by
  have hk := toNat_toUInt8 (show 0xE0 + k < 256 by omega)
  simp only [start, UInt8.lt_iff_toNat_lt, ← UInt8.toNat_inj, hk, UInt8.reduceToNat]
  rw [if_neg (by omega), if_neg (by omega), if_neg (by omega), if_pos (by omega),
    Nat.add_sub_cancel_left]
  have hleast : 0xE0 + k = 224 ↔ k = 0 := by omega
  have hgreatest : 0xE0 + k = 237 ↔ k = 13 := by omega
  simp only [hleast, hgreatest]

/-- The first of four bytes. -/
theorem start_quadruple {k : Nat} (h : k < 5) :
    start (0xF0 + k).toUInt8 =
      .ok (.more ⟨2, if k = 0 then 0x90 else 0x80, if k = 4 then 0x8F else 0xBF, k⟩) := by
  have hk := toNat_toUInt8 (show 0xF0 + k < 256 by omega)
  simp only [start, UInt8.lt_iff_toNat_lt, ← UInt8.toNat_inj, hk, UInt8.reduceToNat]
  rw [if_neg (by omega), if_neg (by omega), if_neg (by omega), if_neg (by omega),
    if_pos (by omega), Nat.add_sub_cancel_left]
  have hleast : 0xF0 + k = 240 ↔ k = 0 := by omega
  have hgreatest : 0xF0 + k = 244 ↔ k = 4 := by omega
  simp only [hleast, hgreatest]

/-- A later byte between the bounds. -/
theorem step_ok {p : Pending} {m : Nat} (hm : m < 64) (hlow : p.low.toNat ≤ 0x80 + m)
    (hhigh : 0x80 + m ≤ p.high.toNat) :
    p.step (0x80 + m).toUInt8 = match p.owed with
      | 0 => .ok (.char (Char.ofNat (p.bits * 64 + m)))
      | owed + 1 => .ok (.more ⟨owed, 0x80, 0xBF, p.bits * 64 + m⟩) := by
  have hbyte := toNat_toUInt8 (show 0x80 + m < 256 by omega)
  simp only [Pending.step, UInt8.le_iff_toNat_le, hbyte, Nat.add_sub_cancel_left]
  exact if_pos ⟨hlow, hhigh⟩

/-- A byte that is a character by itself is decoded to it. -/
theorem decodeOnto_start_char {seen : List Char} {b : UInt8} {c : Char} {more : List UInt8}
    (h : start b = .ok (.char c)) :
    decodeOnto seen none (b :: more) = decodeOnto (c :: seen) none more := by
  rw [decodeOnto]
  simp only [h]

/-- A byte that starts a longer character leaves it pending. -/
theorem decodeOnto_start_more {seen : List Char} {b : UInt8} {p : Pending} {more : List UInt8}
    (h : start b = .ok (.more p)) :
    decodeOnto seen none (b :: more) = decodeOnto seen (some p) more := by
  rw [decodeOnto]
  simp only [h]

/-- The last byte of a pending character completes it. -/
theorem decodeOnto_step_char {seen : List Char} {p : Pending} {b : UInt8} {c : Char}
    {more : List UInt8} (h : p.step b = .ok (.char c)) :
    decodeOnto seen (some p) (b :: more) = decodeOnto (c :: seen) none more := by
  rw [decodeOnto]
  simp only [h]

/-- Another byte of a pending character leaves it pending. -/
theorem decodeOnto_step_more {seen : List Char} {p q : Pending} {b : UInt8}
    {more : List UInt8} (h : p.step b = .ok (.more q)) :
    decodeOnto seen (some p) (b :: more) = decodeOnto seen (some q) more := by
  rw [decodeOnto]
  simp only [h]

/-- The bytes of a character are read back, whatever follows them. -/
theorem decodeOnto_encodeChar (seen : List Char) (c : Char) (more : List UInt8) :
    decodeOnto seen none (encodeChar c ++ more) = decodeOnto (c :: seen) none more := by
  have hvalid : c.toNat < 0xD800 ∨ 0xDFFF < c.toNat ∧ c.toNat < 0x110000 := c.valid
  have hchar : Char.ofNat c.toNat = c := Char.ofNat_toNat c
  unfold encodeChar
  dsimp only
  generalize c.toNat = n at hvalid hchar
  subst hchar
  split
  case isTrue hsingle =>
    exact decodeOnto_start_char (start_single hsingle)
  case isFalse hsingle =>
  split
  case isTrue hdouble =>
    rw [List.cons_append, List.singleton_append,
      decodeOnto_start_more (start_double (k := n / 64) (by omega) (by omega))]
    refine decodeOnto_step_char ?_
    rw [step_ok (Nat.mod_lt n (by decide)) (by simp) (by simp; omega)]
    simp only [show n / 64 * 64 + n % 64 = n by omega]
  case isFalse hdouble =>
  split
  case isTrue htriple =>
    rw [List.cons_append, List.cons_append, List.singleton_append,
      decodeOnto_start_more (start_triple (k := n / 4096) (by omega))]
    rw [decodeOnto_step_more (step_ok (m := n / 64 % 64) (Nat.mod_lt _ (by decide))
      (by dsimp only; split <;> simp; omega) (by dsimp only; split <;> simp <;> omega))]
    refine decodeOnto_step_char ?_
    rw [step_ok (Nat.mod_lt n (by decide)) (by simp) (by simp; omega)]
    simp only [show (n / 4096 * 64 + n / 64 % 64) * 64 + n % 64 = n by omega]
  case isFalse htriple =>
    rw [List.cons_append, List.cons_append, List.cons_append, List.singleton_append,
      decodeOnto_start_more (start_quadruple (k := n / 262144) (by omega))]
    rw [decodeOnto_step_more (step_ok (m := n / 4096 % 64) (Nat.mod_lt _ (by decide))
      (by dsimp only; split <;> simp; omega) (by dsimp only; split <;> simp <;> omega))]
    rw [decodeOnto_step_more (step_ok (m := n / 64 % 64) (Nat.mod_lt _ (by decide))
      (by simp) (by simp; omega))]
    refine decodeOnto_step_char ?_
    rw [step_ok (Nat.mod_lt n (by decide)) (by simp) (by simp; omega)]
    simp only [show ((n / 262144 * 64 + n / 4096 % 64) * 64 + n / 64 % 64) * 64 + n % 64 = n by
      omega]

/-- The bytes of a text are read back after the characters already seen. -/
theorem decodeOnto_encode (seen text : List Char) :
    decodeOnto seen none (encode text) = .ok (seen.reverse ++ text) := by
  induction text generalizing seen with
  | nil => simp [encode, decodeOnto]
  | cons c text ih =>
    have hcons : encode (c :: text) = encodeChar c ++ encode text := rfl
    rw [hcons, decodeOnto_encodeChar, ih]
    simp

/-- The bytes of a text are read back. -/
theorem decode_encode (text : List Char) : decode (encode text) = .ok text :=
  decodeOnto_encode [] text

end MapArchive.Utf8
