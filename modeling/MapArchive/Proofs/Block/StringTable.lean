import MapArchive.Block.StringTable
import MapArchive.Proofs.Text.Completion

/-!
# What looking up a string comes to

There are three outcomes, and the table and the index say which: an index outside of the table and
an entry that is no valid UTF-8 are told apart and reported with the index; anything else is a text,
the one whose encoding the entry is. Of the entries that are no text, those that have been cut short
are reported in other words than those that no bytes can follow to make a text.
-/

namespace MapArchive.StringTable

variable {table : StringTable} {index : Int}

/-- There is no entry for negative indices and for those past the end. -/
theorem get?_eq_none_iff :
    table.get? index = none ↔ index < 0 ∨ (table.entries.size : Int) ≤ index := by
  unfold get?
  split
  case isTrue hneg => simp [hneg]
  case isFalse hneg =>
    rw [Array.getElem?_eq_none_iff]
    omega

/-- The outcomes of looking up an index. -/
theorem resolve_cases (table : StringTable) (index : Int) :
    (table.get? index = none ∧ table.resolve index = .error (.indexOutOfBounds index)) ∨
    (∃ text : String, table.get? index = some text.toByteArray ∧ table.resolve index = .ok text) ∨
    ∃ (entry : ByteArray) (fault : Utf8.Fault), table.get? index = some entry ∧
      ¬entry.IsValidUTF8 ∧ table.resolve index = .error (.notText index fault.reason) := by
  unfold resolve
  cases hentry : table.get? index with
  | none => exact .inl ⟨rfl, rfl⟩
  | some entry =>
    cases hdecode : Utf8.decode (octets entry) with
    | ok chars =>
      refine .inr (.inl ⟨String.ofList chars, ?_, by simp only [hdecode]⟩)
      rw [Utf8.decode_octets_eq_ok_iff.mp hdecode, String.toByteArray_ofList]
    | error fault =>
      exact .inr (.inr ⟨entry, fault, rfl, Utf8.not_isValidUTF8_of_error hdecode,
        by simp only [hdecode]⟩)

/-- An index stands for the text whose encoding is its entry. -/
theorem resolve_eq_ok_iff {text : String} :
    table.resolve index = .ok text ↔ table.get? index = some text.toByteArray := by
  obtain ⟨hentry, hresolve⟩ | ⟨found, hentry, hresolve⟩ | ⟨entry, fault, hentry, hnot, hresolve⟩ :=
    table.resolve_cases index
  · simp [hentry, hresolve]
  · simp [hentry, hresolve, String.toByteArray_inj]
  · have hne : entry ≠ text.toByteArray := fun h => hnot (h ▸ text.isValidUTF8)
    simp [hentry, hresolve, hne]

/-- There is an entry with an index, and it is the encoding of a text. -/
def Holds (table : StringTable) (index : Int) (text : String) : Prop :=
  0 ≤ index ∧ table.entries[index.toNat]? = some text.toByteArray

/-- There is an entry with an index, and it is valid UTF-8. -/
def HasText (table : StringTable) (index : Int) : Prop :=
  0 ≤ index ∧ ∃ entry, table.entries[index.toNat]? = some entry ∧ entry.IsValidUTF8

/-- An entry is found just if the index is not negative and the entry stands there. -/
theorem get?_eq_some_iff {entry : ByteArray} :
    table.get? index = some entry ↔ 0 ≤ index ∧ table.entries[index.toNat]? = some entry := by
  unfold get?
  split
  case isTrue hneg => simp [Int.not_le.mpr hneg]
  case isFalse hneg => simp [Int.not_lt.mp hneg]

/-- An index stands for the text that the table holds there. -/
theorem resolve_eq_ok_iff_holds {text : String} :
    table.resolve index = .ok text ↔ table.Holds index text :=
  resolve_eq_ok_iff.trans get?_eq_some_iff

/-- Texts are held where the entries are valid UTF-8. -/
theorem hasText_iff : table.HasText index ↔ ∃ text, table.Holds index text := by
  constructor
  · rintro ⟨hindex, entry, hentry, chars, rfl⟩
    exact ⟨String.ofList chars, hindex, by rw [hentry, String.toByteArray_ofList]⟩
  · rintro ⟨text, hindex, hentry⟩
    exact ⟨hindex, _, hentry, text.isValidUTF8⟩

/-- Looking up fails as out of bounds for indices outside of the table. -/
theorem resolve_eq_indexOutOfBounds_iff {i : Int} :
    table.resolve index = .error (.indexOutOfBounds i) ↔
      i = index ∧ (index < 0 ∨ (table.entries.size : Int) ≤ index) := by
  rw [← get?_eq_none_iff]
  obtain ⟨hentry, hresolve⟩ | ⟨found, hentry, hresolve⟩ | ⟨entry, fault, hentry, hnot, hresolve⟩ :=
    table.resolve_cases index
  · simp [hentry, hresolve, eq_comm]
  · simp [hentry, hresolve]
  · simp [hentry, hresolve]

/-- Looking up fails as no text for entries that are no valid UTF-8. -/
theorem resolve_eq_notText_iff {i : Int} :
    (∃ reason, table.resolve index = .error (.notText i reason)) ↔
      i = index ∧ ∃ entry, table.get? index = some entry ∧ ¬entry.IsValidUTF8 := by
  obtain ⟨hentry, hresolve⟩ | ⟨found, hentry, hresolve⟩ | ⟨entry, fault, hentry, hnot, hresolve⟩ :=
    table.resolve_cases index
  · simp [hentry, hresolve]
  · simp [hentry, hresolve, found.isValidUTF8]
  · simp [hentry, hresolve, hnot, eq_comm]

/-- Looking up fails in no other way. -/
theorem error_of_resolve {e : ArchiveError} (h : table.resolve index = .error e) :
    e = .indexOutOfBounds index ∨ ∃ reason, e = .notText index reason := by
  obtain ⟨-, hresolve⟩ | ⟨found, -, hresolve⟩ | ⟨entry, fault, -, -, hresolve⟩ :=
    table.resolve_cases index
  · exact .inl (Except.error.inj (h.symm.trans hresolve))
  · cases h.symm.trans hresolve
  · exact .inr ⟨_, Except.error.inj (h.symm.trans hresolve)⟩

/-- An entry that is no text is reported as ending too early just if it can be completed. -/
theorem exists_reason {i : Nat} {entry : ByteArray} (hentry : table.entries[i]? = some entry)
    (hnot : ¬entry.IsValidUTF8) :
    ∃ reason, table.resolve i = .error (.notText i reason) ∧
      (reason = "unexpected end of data" ↔ ∃ more : ByteArray, (entry ++ more).IsValidUTF8) := by
  have hget : table.get? i = some entry := get?_eq_some_iff.mpr ⟨Int.natCast_nonneg i, hentry⟩
  unfold resolve
  rw [hget]
  cases hdecode : Utf8.decode (octets entry) with
  | ok text => exact absurd ⟨text, Utf8.decode_octets_eq_ok_iff.mp hdecode⟩ hnot
  | error fault =>
    refine ⟨fault.reason, by simp only [hdecode], ?_⟩
    rw [Utf8.Fault.reason_eq_iff, Utf8.eq_unexpectedEnd_iff hdecode]

/-- The encoding of a text, as a table of texts has it. -/
theorem toByteArray_eq (text : String) : text.toByteArray = ofOctets (Utf8.encode text.toList) := by
  rw [Utf8.ofOctets_encode, ← String.toByteArray_ofList, String.ofList_toList]

/-- A table of texts holds each of them at its index. -/
theorem holds_ofTexts {texts : List String} {i : Nat} {text : String} (h : texts[i]? = some text) :
    (ofTexts texts).Holds i text := by
  refine ⟨Int.natCast_nonneg i, ?_⟩
  rw [Int.toNat_natCast, toByteArray_eq]
  simp [ofTexts, h]

/-- Looking up strings is exact.
- An index, be it negative or not, stands for a text just if it is that of an entry and the entry is
  the encoding of the text.
- It is reported to be out of bounds just if it is negative or not below the number of entries.
- It is reported to stand for no text if its entry is no valid UTF-8; then the reason is that the
  entry ends too early just if there are bytes which make it valid UTF-8 when they are appended.
- Two entries that are texts are the same text just if they are the same bytes.
- A table that has been made of texts gives each of them back at its index. -/
theorem lookups_are_exact (table : StringTable) :
    (∀ (index : Int) (text : String), table.resolve index = .ok text ↔
      0 ≤ index ∧ table.entries[index.toNat]? = some text.toByteArray) ∧
    (∀ index : Int, table.resolve index = .error (.indexOutOfBounds index) ↔
      index < 0 ∨ (table.entries.size : Int) ≤ index) ∧
    (∀ (i : Nat) (entry : ByteArray), table.entries[i]? = some entry → ¬entry.IsValidUTF8 →
      ∃ reason, table.resolve i = .error (.notText i reason) ∧
        (reason = "unexpected end of data" ↔ ∃ more : ByteArray, (entry ++ more).IsValidUTF8)) ∧
    (∀ (i j : Nat) (s t : String), table.resolve i = .ok s → table.resolve j = .ok t →
      (s = t ↔ table.entries[i]? = table.entries[j]?)) ∧
    ∀ (texts : List String) (i : Nat) (text : String), texts[i]? = some text →
      (ofTexts texts).resolve i = .ok text := by
  refine ⟨fun index text => resolve_eq_ok_iff_holds, fun index => ?_,
    fun i entry => exists_reason, fun i j s t hs ht => ?_,
    fun texts i text h => resolve_eq_ok_iff_holds.mpr (holds_ofTexts h)⟩
  · rw [resolve_eq_indexOutOfBounds_iff]
    exact and_iff_right rfl
  · have hi : table.entries[i]? = some s.toByteArray := (resolve_eq_ok_iff_holds.mp hs).2
    have hj : table.entries[j]? = some t.toByteArray := (resolve_eq_ok_iff_holds.mp ht).2
    rw [hi, hj, Option.some_inj, String.toByteArray_inj]

/-- A text and entries that are none: one that has been cut short, a surrogate, an overlong form and
a number above U+10FFFF. -/
def flawed : StringTable :=
  ⟨#[ofOctets [0xE2, 0x82, 0xAC], ofOctets [0xE2, 0x82], ofOctets [0xED, 0xA0, 0x80],
    ofOctets [0xC0, 0x80], ofOctets [0xF4, 0x90, 0x80, 0x80]]⟩

/-- The text is found. The entry that has been cut short can be completed and is reported so; the
others cannot, whatever bytes follow. The index past the end is reported as such. -/
theorem flawed_lookups_are_exact :
    flawed.resolve 0 = .ok "€" ∧
    (∃ more : ByteArray, (ofOctets [0xE2, 0x82] ++ more).IsValidUTF8) ∧
    (¬∃ more : ByteArray, (ofOctets [0xED, 0xA0, 0x80] ++ more).IsValidUTF8) ∧
    (¬∃ more : ByteArray, (ofOctets [0xC0, 0x80] ++ more).IsValidUTF8) ∧
    (¬∃ more : ByteArray, (ofOctets [0xF4, 0x90, 0x80, 0x80] ++ more).IsValidUTF8) ∧
    flawed.resolve 5 = .error (.indexOutOfBounds 5) := by
  obtain ⟨hok, hbounds, hreason, -, -⟩ := lookups_are_exact flawed
  have hwrong {i : Nat} {entry : ByteArray} {reason : String}
      (hentry : flawed.entries[i]? = some entry) (hnot : ¬entry.IsValidUTF8)
      (hresolve : flawed.resolve i = .error (.notText i reason))
      (hne : reason ≠ "unexpected end of data") :
      ¬∃ more : ByteArray, (entry ++ more).IsValidUTF8 := by
    obtain ⟨_, hsame, hiff⟩ := hreason i entry hentry hnot
    cases hresolve.symm.trans hsame
    exact fun hmore => hne (hiff.mpr hmore)
  refine ⟨(hok 0 "€").mpr ⟨by decide, by decide⟩, ?_, ?_, ?_, ?_, (hbounds 5).mpr (by decide)⟩
  · obtain ⟨reason, hresolve, hiff⟩ := hreason 1 _ rfl (Utf8.not_isValidUTF8_of_error rfl)
    cases hresolve
    exact hiff.mp rfl
  · exact hwrong (i := 2) rfl (Utf8.not_isValidUTF8_of_error rfl) rfl (by decide)
  · exact hwrong (i := 3) rfl (Utf8.not_isValidUTF8_of_error rfl) rfl (by decide)
  · exact hwrong (i := 4) rfl (Utf8.not_isValidUTF8_of_error rfl) rfl (by decide)

end MapArchive.StringTable
