import MapArchive.Proofs.Wire.Record

/-!
# Readers look at nothing but what they read

What a reader gives depends on the bytes it uses up and on no others: wherever these bytes are the
first of those unread, it gives the same and leaves the others. So the records of one byte string
and then another are the records of the former and then those of the latter.
-/

namespace MapArchive

namespace Cursor

/-- Readers that depend on the bytes they use up alone. These are the first of the unread bytes, and
wherever the unread bytes start with them, the same is read and the rest is left. -/
def IsLocal {α : Type} (read : Cursor → Option (α × Cursor)) : Prop :=
  ∀ c d a, read c = some (a, d) →
    ∃ part, c.rest = part ++ d.rest ∧
      ∀ e more, e.rest = part ++ more → ∃ f, read e = some (a, f) ∧ f.rest = more

variable {α β : Type}

/-- Reads with one reader and then with another, which what was read chooses. -/
def andThen (first : Cursor → Option (α × Cursor)) (second : α → Cursor → Option (β × Cursor))
    (c : Cursor) : Option (β × Cursor) :=
  (first c).bind fun (a, d) => second a d

/-- Reads with a reader and changes what was read. -/
def giving (g : α → β) (read : Cursor → Option (α × Cursor)) (c : Cursor) :
    Option (β × Cursor) :=
  (read c).map fun (a, d) => (g a, d)

/-- To read nothing is local. -/
theorem isLocal_pure (a : α) : IsLocal fun c => some (a, c) := by
  intro c d b h
  cases h
  exact ⟨[], rfl, fun e more he => ⟨e, rfl, he⟩⟩

/-- To refuse is local. -/
theorem isLocal_none : IsLocal fun _ => (none : Option (α × Cursor)) := fun _ _ _ h => nomatch h

/-- The next byte depends only on the bytes that are read. -/
theorem isLocal_next? : IsLocal next? := by
  intro c d b h
  exact ⟨[b], rest_of_next? h, fun e more he => next?_of_rest he⟩

/-- Bytes taken together depend only on the bytes that are read. -/
theorem isLocal_take? (n : Nat) : IsLocal (take? n) := by
  intro c d part h
  refine ⟨octets part, rest_of_take? h, fun e more he => ?_⟩
  have htake := take?_octets he
  rwa [size_of_take? h] at htake

/-- One local reader after another is local, also where the second one depends on what was read. -/
theorem IsLocal.andThen {first : Cursor → Option (α × Cursor)}
    {second : α → Cursor → Option (β × Cursor)} (hfirst : IsLocal first)
    (hsecond : ∀ a, IsLocal (second a)) : IsLocal (andThen first second) := by
  intro c d b h
  obtain ⟨⟨a, m⟩, ha, hb⟩ := Option.bind_eq_some_iff.mp h
  obtain ⟨front, hfront, hfirst⟩ := hfirst c m a ha
  obtain ⟨back, hback, hsecond⟩ := hsecond a m d b hb
  refine ⟨front ++ back, by rw [hfront, hback, List.append_assoc], fun e more he => ?_⟩
  obtain ⟨n, hn, hrest⟩ := hfirst e (back ++ more) (by rw [he, List.append_assoc])
  obtain ⟨f, hf, hmore⟩ := hsecond n more hrest
  exact ⟨f, Option.bind_eq_some_iff.mpr ⟨(a, n), hn, hf⟩, hmore⟩

/-- To change what was read keeps a reader local. -/
theorem IsLocal.giving {read : Cursor → Option (α × Cursor)} (hread : IsLocal read) (g : α → β) :
    IsLocal (giving g read) := by
  intro c d b h
  obtain ⟨⟨a, m⟩, ha, hb⟩ := Option.map_eq_some_iff.mp h
  cases hb
  obtain ⟨part, hpart, hlocal⟩ := hread c d a ha
  refine ⟨part, hpart, fun e more he => ?_⟩
  obtain ⟨f, hf, hmore⟩ := hlocal e more he
  exact ⟨f, Option.map_eq_some_iff.mpr ⟨(a, f), hf, rfl⟩, hmore⟩

/-- To go on only on a condition keeps a reader local. -/
theorem IsLocal.ite {p : Prop} [Decidable p] {yes no : Cursor → Option (α × Cursor)}
    (hyes : IsLocal yes) (hno : IsLocal no) : IsLocal fun c => if p then yes c else no c := by
  by_cases hp : p
  · simpa only [if_pos hp] using hyes
  · simpa only [if_neg hp] using hno

end Cursor

open Cursor (IsLocal)

namespace Varint

/-- The groups of a varint depend only on the bytes that are read. -/
theorem isLocal_groups (budget : Nat) : IsLocal (groups budget) := by
  induction budget with
  | zero => exact Cursor.isLocal_none
  | succ budget ih =>
    have hgroups : groups (budget + 1) = Cursor.andThen Cursor.next? fun b d =>
        if b < 0x80 then some (b.toNat, d)
        else Cursor.giving (b.toNat % 128 + 128 * ·) (groups budget) d := by
      funext c
      rw [groups, Cursor.andThen]
      rcases c.next? with _ | ⟨b, d⟩
      · rfl
      · simp only [Option.bind_some, Cursor.giving]
        rcases groups budget d with _ | ⟨high, e⟩ <;> rfl
    rw [hgroups]
    refine Cursor.isLocal_next?.andThen fun b => ?_
    exact IsLocal.ite (Cursor.isLocal_pure b.toNat) (ih.giving _)

/-- A varint depends only on the bytes that are read. -/
theorem isLocal_read : IsLocal read := by
  have hread : read = Cursor.giving Nat.toUInt64 (groups maxLength) := by
    funext c
    rw [read, Cursor.giving]
    rcases groups maxLength c with _ | ⟨n, d⟩ <;> rfl
  rw [hread]
  exact (isLocal_groups maxLength).giving _

/-- A short varint depends only on the bytes that are read. -/
theorem isLocal_readShort : IsLocal readShort := isLocal_groups maxShortLength

end Varint

namespace Record

/-- A tag depends only on the bytes that are read. -/
theorem isLocal_readTag : IsLocal readTag := by
  have hread : readTag = Cursor.andThen Varint.readShort fun n d =>
      if n < 0x100000000 then some (⟨n / 8, n % 8⟩, d) else none := by
    funext c
    rw [readTag, Cursor.andThen]
    rcases Varint.readShort c with _ | ⟨n, d⟩ <;> rfl
  rw [hread]
  refine Varint.isLocal_readShort.andThen fun n => ?_
  exact IsLocal.ite (Cursor.isLocal_pure _) Cursor.isLocal_none

/-- A byte string with its length depends only on the bytes that are read. -/
theorem isLocal_readBytes : IsLocal readBytes := by
  have hread : readBytes = Cursor.andThen Varint.readShort fun n d =>
      if n ≤ maxLength then d.take? n else none := by
    funext c
    rw [readBytes, Cursor.andThen]
    rcases Varint.readShort c with _ | ⟨n, d⟩ <;> rfl
  rw [hread]
  refine Varint.isLocal_readShort.andThen fun n => ?_
  exact IsLocal.ite (Cursor.isLocal_take? n) Cursor.isLocal_none

/-- A payload that is no group depends only on the bytes that are read. -/
theorem isLocal_readPlain (kind : Nat) : IsLocal (readPlain kind) := by
  rcases kind with _ | _ | _ | _ | _ | _ | kind
  · exact Varint.isLocal_read.giving Payload.varint
  · exact (Cursor.isLocal_take? 8).giving Payload.fixed64
  · exact isLocal_readBytes.giving Payload.bytes
  · exact Cursor.isLocal_none
  · exact Cursor.isLocal_none
  · exact (Cursor.isLocal_take? 4).giving Payload.fixed32
  · exact Cursor.isLocal_none

/-- Reading a group is local: by induction on its records and those of the groups within. -/
theorem isLocal_readGroup (room : Nat) (innermost : OpenGroup) (outer : List OpenGroup) :
    IsLocal (readGroup room innermost outer) := by
  intro c d r h
  fun_induction readGroup room innermost outer c with
  | case1 => cases h
  | case2 innermost outer c tag m htag _ hopen hroom ih =>
    obtain ⟨front, hfront, htags⟩ := isLocal_readTag _ _ _ htag
    obtain ⟨back, hback, hread⟩ := ih h
    refine ⟨front ++ back, by rw [hfront, hback, List.append_assoc], fun e more he => ?_⟩
    obtain ⟨n, hn, hrest⟩ := htags e (back ++ more) (by rw [he, List.append_assoc])
    obtain ⟨f, hf, hmore⟩ := hread n more hrest
    refine ⟨f, ?_, hmore⟩
    rw [readGroup_of_open (by rw [hn, ← hopen]) hroom, hf]
  | case3 => cases h
  | case4 innermost c tag m htag _ hopen hclose hfield =>
    cases h
    obtain ⟨front, hfront, htags⟩ := isLocal_readTag _ _ _ htag
    refine ⟨front, hfront, fun e more he => ?_⟩
    obtain ⟨n, hn, hrest⟩ := htags e more he
    exact ⟨n, readGroup_of_last (by rw [hn, ← hclose, ← hfield]), hrest⟩
  | case5 innermost c tag m htag _ hopen hclose hfield next outer ih =>
    obtain ⟨front, hfront, htags⟩ := isLocal_readTag _ _ _ htag
    obtain ⟨back, hback, hread⟩ := ih h
    refine ⟨front ++ back, by rw [hfront, hback, List.append_assoc], fun e more he => ?_⟩
    obtain ⟨n, hn, hrest⟩ := htags e (back ++ more) (by rw [he, List.append_assoc])
    obtain ⟨f, hf, hmore⟩ := hread n more hrest
    refine ⟨f, ?_, hmore⟩
    rw [readGroup_of_close (by rw [hn, ← hclose, ← hfield]), hf]
  | case6 => cases h
  | case7 => cases h
  | case8 innermost outer c tag m htag _ hopen hclose payload e hplain _ ih =>
    obtain ⟨front, hfront, htags⟩ := isLocal_readTag _ _ _ htag
    obtain ⟨body, hbody, hbodies⟩ := isLocal_readPlain tag.kind _ _ _ hplain
    obtain ⟨back, hback, hread⟩ := ih h
    refine ⟨front ++ (body ++ back),
      by rw [hfront, hbody, hback, List.append_assoc, List.append_assoc], fun e more he => ?_⟩
    obtain ⟨n, hn, hrest⟩ := htags e (body ++ (back ++ more))
      (by rw [he, List.append_assoc, List.append_assoc])
    obtain ⟨o, ho, hafter⟩ := hbodies n (back ++ more) hrest
    obtain ⟨f, hf, hmore⟩ := hread o more hafter
    exact ⟨f, by rw [readGroup_of_plain hn hopen hclose ho, hf], hmore⟩

/-- A record depends only on the bytes that are read. -/
theorem isLocal_read (room : Nat) : IsLocal (read room) := by
  have hread : read room = Cursor.andThen readTag fun tag d =>
      if tag.field = 0 then none
      else if tag.kind = 3 then
        if 0 < room then readGroup room ⟨tag.field, #[]⟩ [] d else none
      else Cursor.giving (Record.mk tag.field) (readPlain tag.kind) d := by
    funext c
    rw [read, Cursor.andThen]
    rcases readTag c with _ | ⟨tag, d⟩
    · rfl
    · simp only [Option.bind_some, Cursor.giving]
      rcases readPlain tag.kind d with _ | ⟨payload, e⟩ <;> rfl
  rw [hread]
  refine isLocal_readTag.andThen fun tag => ?_
  refine IsLocal.ite Cursor.isLocal_none (IsLocal.ite ?_ ?_)
  · exact IsLocal.ite (isLocal_readGroup room ⟨tag.field, #[]⟩ []) Cursor.isLocal_none
  · exact (isLocal_readPlain tag.kind).giving (Record.mk tag.field)

/-- Records that were read to the end are read wherever their bytes stand, after any others. -/
theorem readOnto_of_rest {room : Nat} {seen : Array Record} {c : Cursor} {records : List Record}
    (h : readOnto room seen c = some records) (before : Array Record) {e : Cursor}
    {more : List UInt8} (he : e.rest = c.rest ++ more) :
    ∃ f found, records = seen.toList ++ found ∧ f.rest = more ∧
      readOnto room before e = readOnto room (before ++ found.toArray) f := by
  fun_induction readOnto room seen c generalizing before e with
  | case1 seen c hremaining =>
    cases h
    have hrest : c.rest = [] := List.length_eq_zero_iff.mp (by rw [Cursor.length_rest, hremaining])
    exact ⟨e, [], by simp, by rw [he, hrest, List.nil_append], by simp⟩
  | case2 => cases h
  | case3 seen c _ r d hread _ ih =>
    obtain ⟨part, hpart, hlocal⟩ := isLocal_read room _ _ _ hread
    obtain ⟨m, hm, hrest⟩ := hlocal e (d.rest ++ more) (by rw [he, hpart, List.append_assoc])
    obtain ⟨f, found, hfound, hmore, hreads⟩ := ih h (before.push r) hrest
    refine ⟨f, r :: found, by simp [hfound], hmore, ?_⟩
    have hlt := remaining_of_read hm
    rw [readOnto, if_neg (by omega)]
    split
    case h_1 hnone => rw [hm] at hnone; cases hnone
    case h_2 r' d' hsome =>
      rw [hm] at hsome
      cases hsome
      rw [hreads]
      simp

/-- No bytes are no records. -/
theorem readAll_empty (room : Nat) : readAll room .empty = some [] := by
  have hremaining : (Cursor.atStart .empty).remaining = 0 := rfl
  rw [readAll, readOnto, if_pos hremaining]

/-- The records of two byte strings together are those of each. -/
theorem readAll_append {room : Nat} {a b : ByteArray} {first later : List Record}
    (ha : readAll room a = some first) (hb : readAll room b = some later) :
    readAll room (a ++ b) = some (first ++ later) := by
  have hboth : (Cursor.atStart (a ++ b)).rest = (Cursor.atStart a).rest ++ octets b := by
    simp only [Cursor.rest_atStart, octets_append]
  obtain ⟨f, found, hfound, hf, hfirst⟩ := readOnto_of_rest ha #[] hboth
  have hafter : f.rest = (Cursor.atStart b).rest ++ [] := by
    rw [hf, Cursor.rest_atStart, List.append_nil]
  obtain ⟨g, others, hothers, hg, hlater⟩ := readOnto_of_rest hb (#[] ++ found.toArray) hafter
  have hremaining : g.remaining = 0 := by rw [← Cursor.length_rest, hg, List.length_nil]
  rw [readAll, hfirst, hlater, readOnto, if_pos hremaining, hfound, hothers]
  simp

end Record

end MapArchive
