import Mathlib.Data.List.Forall2
import MapArchive.Block.Group
import MapArchive.Proofs.Block.StringTable
import MapArchive.Proofs.Element.TagRanges
import MapArchive.Proofs.Walk.InStep

/-!
# Tags and the indices they are looked up by

An element has pairs of indices, and its tags are what these stand for up to the first pair of which
a half cannot be looked up. The pairs themselves are all there, whether they can be looked up or
not.

Keys and values need not be paired beforehand: they can be taken from two columns in turn, those of
a message or every second entry of the tags of a dense node. The tags are the same.
-/

namespace MapArchive

namespace TagWalk

/-! ## The longest beginning that can be looked up -/

/-- A pair of indices stands for a tag. -/
def Names (table : StringTable) (pair : Int × Int) (tag : String × String) : Prop :=
  table.Holds pair.1 tag.1 ∧ table.Holds pair.2 tag.2

/-- Both halves of a pair can be looked up. -/
def IsResolvable (table : StringTable) (pair : Int × Int) : Prop :=
  table.HasText pair.1 ∧ table.HasText pair.2

/-- So many pairs from the front on can be looked up, and no more. -/
def IsLongest (table : StringTable) (pairs : List (Int × Int)) (n : Nat) : Prop :=
  n ≤ pairs.length ∧
    ∀ m ≤ pairs.length, (∀ pair ∈ pairs.take m, IsResolvable table pair) ↔ m ≤ n

variable {table : StringTable} {pair : Int × Int} {pairs : List (Int × Int)}

/-- A pair of indices is resolved to the tag that it names. -/
theorem resolve_eq_ok_iff {tag : String × String} :
    resolve table pair = .ok tag ↔ Names table pair tag := by
  rw [Names, ← StringTable.resolve_eq_ok_iff_holds, ← StringTable.resolve_eq_ok_iff_holds, resolve]
  obtain ⟨key, value⟩ := tag
  cases table.resolve pair.1 with
  | error fault => simp [bind, Except.bind]
  | ok foundKey =>
    cases table.resolve pair.2 with
    | error fault => simp [bind, Except.bind]
    | ok foundValue => simp [bind, Except.bind, pure, Except.pure]

/-- A pair can be resolved just if it is resolved to some tag. -/
theorem isResolvable_iff : IsResolvable table pair ↔ ∃ tag, resolve table pair = .ok tag := by
  simp only [IsResolvable, StringTable.hasText_iff, resolve_eq_ok_iff, Names]
  constructor
  · rintro ⟨⟨key, hkey⟩, value, hvalue⟩
    exact ⟨(key, value), hkey, hvalue⟩
  · rintro ⟨tag, hkey, hvalue⟩
    exact ⟨⟨tag.1, hkey⟩, tag.2, hvalue⟩

/-- No pairs are the longest prefix of no pairs. -/
theorem isLongest_nil : IsLongest table [] 0 := by
  refine ⟨Nat.le_refl _, fun m hm => ?_⟩
  simpa using hm

/-- A pair in front that can be looked up makes one more. -/
theorem IsLongest.cons {n : Nat} (hpair : IsResolvable table pair) (h : IsLongest table pairs n) :
    IsLongest table (pair :: pairs) (n + 1) := by
  refine ⟨Nat.succ_le_succ h.1, fun m hm => ?_⟩
  cases m with
  | zero => simp
  | succ m =>
    rw [List.take_succ_cons, List.forall_mem_cons, h.2 m (Nat.le_of_succ_le_succ hm),
      Nat.succ_le_succ_iff]
    exact and_iff_right hpair

/-- A pair in front that cannot be looked up leaves none. -/
theorem isLongest_of_not_isResolvable (hpair : ¬IsResolvable table pair) :
    IsLongest table (pair :: pairs) 0 := by
  refine ⟨Nat.zero_le _, fun m hm => ?_⟩
  cases m with
  | zero => simp
  | succ m =>
    rw [List.take_succ_cons, List.forall_mem_cons]
    simp [hpair]

/-! ## The walk through the tags -/

instance : Walk.Fused TagWalk where
  next_of_none {s t} h := by
    obtain ⟨table, pairs⟩ := s
    change TagWalk.next _ = _ at h
    unfold TagWalk.next at h
    cases pairs with
    | nil => cases h; rfl
    | cons pair rest =>
      dsimp only at h
      split at h
      · cases h
      · cases h; rfl

/-- Without pairs there is no tag. -/
theorem next_of_nil : (TagWalk.mk table []).next = (none, ⟨table, []⟩) := rfl

/-- A pair that is resolved is given as a tag. -/
theorem next_of_ok {tag : String × String} (h : resolve table pair = .ok tag) :
    (TagWalk.mk table (pair :: pairs)).next = (some tag, ⟨table, pairs⟩) := by
  rw [next]
  simp only [h]

/-- A pair that is not resolved ends the tags, and the others are dropped. -/
theorem next_of_error {e : ArchiveError} (h : resolve table pair = .error e) :
    (TagWalk.mk table (pair :: pairs)).next = (none, ⟨table, []⟩) := by
  rw [next]
  simp only [h]

/-- The walk gives the tags of the longest beginning that can be looked up, and nothing after
them. -/
theorem exists_isLongest (table : StringTable) (pairs : List (Int × Int)) :
    ∃ n tags, IsLongest table pairs n ∧ List.Forall₂ (Names table) (pairs.take n) tags ∧
      Walk.GivesJust (TagWalk.mk table pairs) tags := by
  have hnil : Walk.GivesJust (TagWalk.mk table []) [] := by
    have hjust := Walk.givesJust_toList (TagWalk.mk table [])
    rwa [Walk.toList_of_none (s := TagWalk.mk table []) next_of_nil] at hjust
  induction pairs with
  | nil => exact ⟨0, [], isLongest_nil, .nil, hnil⟩
  | cons pair pairs ih =>
    cases hresolve : resolve table pair with
    | ok tag =>
      obtain ⟨n, tags, hlongest, hnames, hjust⟩ := ih
      refine ⟨n + 1, tag :: tags, hlongest.cons (isResolvable_iff.mpr ⟨tag, hresolve⟩), ?_, ?_⟩
      · exact .cons (resolve_eq_ok_iff.mp hresolve) hnames
      · exact Walk.givesJust_cons_iff.mpr ⟨_, next_of_ok hresolve, hjust⟩
    | error e =>
      refine ⟨0, [], isLongest_of_not_isResolvable ?_, .nil, ?_⟩
      · rw [isResolvable_iff]
        rintro ⟨tag, htag⟩
        cases htag.symm.trans hresolve
      · exact Walk.givesJust_nil_iff.mpr ⟨_, next_of_error hresolve, hnil⟩

end TagWalk

/-! ## Keys and values in two columns -/

/-- Tags that are being looked up, their keys and values taken from two columns in turn. -/
structure TagColumns where
  /-- Where they are looked up. -/
  table : StringTable
  /-- The keys and the values to come. -/
  columns : Walk.InStep (List Int) (List Int)

namespace TagColumns

/-- Gives the next tag. A failure leaves nothing to come. -/
def next (w : TagColumns) : Option (String × String) × TagColumns :=
  match Walk.next w.columns with
  | (none, columns) => (none, { w with columns })
  | (some pair, columns) =>
    match TagWalk.resolve w.table pair with
    | .ok tag => (some tag, { w with columns })
    | .error _ => (none, { w with columns := ⟨[], []⟩ })

instance : Walk TagColumns (String × String) where
  next := next
  bound w := Walk.bound w.columns
  bound_next {s t a} h := by
    unfold next at h
    split at h
    · cases h
    case h_2 pair columns hcolumns =>
      split at h
      · cases h
        exact Walk.bound_next hcolumns
      · cases h

/-- The columns give the pairs of a walk, and are looked up in its table. -/
structure Matches (w : TagColumns) (v : TagWalk) : Prop where
  /-- The table is the same. -/
  table : w.table = v.table
  /-- The columns give the pairs. -/
  pairs : Walk.GivesJust w.columns v.pairs

/-- Both give the same tag, or none, and still match afterwards. -/
theorem matches_next {w : TagColumns} {v : TagWalk} (h : w.Matches v) :
    (Walk.next w).1 = (Walk.next v).1 ∧ Matches (Walk.next w).2 (Walk.next v).2 := by
  obtain ⟨table, columns⟩ := w
  obtain ⟨_, pairs⟩ := v
  obtain ⟨rfl, hpairs⟩ := h
  change (next _).1 = (TagWalk.next _).1 ∧ Matches (next _).2 (TagWalk.next _).2
  cases pairs with
  | nil =>
    obtain ⟨rest, hnext, hrest⟩ := Walk.givesJust_nil_iff.mp hpairs
    rw [next, hnext]
    exact ⟨rfl, rfl, hrest⟩
  | cons pair pairs =>
    obtain ⟨rest, hnext, hrest⟩ := Walk.givesJust_cons_iff.mp hpairs
    rw [next, hnext]
    dsimp only
    cases hresolve : TagWalk.resolve table pair with
    | ok tag =>
      rw [TagWalk.next_of_ok hresolve]
      exact ⟨rfl, rfl, hrest⟩
    | error e =>
      rw [TagWalk.next_of_error hresolve]
      exact ⟨rfl, rfl, Walk.InStep.givesJust_zip (Walk.givesJust_list []) (Walk.givesJust_list [])⟩

/-- Taking keys and values in turn gives the tags of their pairs. -/
theorem nexts_eq (table : StringTable) (keys vals : List Int) (n : Nat) :
    Walk.nexts n (TagColumns.mk table ⟨keys, vals⟩) =
      Walk.nexts n (TagWalk.mk table (keys.zip vals)) :=
  Walk.nexts_eq_of_related (R := Matches) (fun _ _ => matches_next)
    ⟨rfl, Walk.InStep.givesJust_zip (Walk.givesJust_list keys)
      (Walk.givesJust_list vals)⟩ n

end TagColumns

/-- Every second number, from the first one on. -/
def everyOther : List Int → List Int
  | [] => []
  | [a] => [a]
  | a :: _ :: rest => a :: everyOther rest

/-- Pairs are made of every second number from the first and from the second one on. -/
theorem zip_everyOther (entries : List Int) :
    (everyOther entries).zip (everyOther entries.tail) = pairsOf entries := by
  fun_induction pairsOf entries with
  | case1 a b rest ih =>
    cases rest with
    | nil => rfl
    | cons c rest =>
      rw [List.tail_cons] at ih
      rw [everyOther, List.tail_cons, everyOther, List.zip_cons_cons, ih]
  | case2 entries hshort =>
    rcases entries with _ | ⟨a, _ | ⟨b, rest⟩⟩
    · rfl
    · rfl
    · exact (hshort a b rest rfl).elim

namespace Element

/-- Looks up the tags of an element, its keys and values taken in turn. Those of a dense node are
every second one of its entries. -/
def tagColumns (table : StringTable) (e : Element) : TagColumns :=
  match e with
  | .denseNode n => ⟨table, everyOther n.keysVals, everyOther n.keysVals.tail⟩
  | .node n => ⟨table, n.keys.map fun k => (k.toNat : Int), n.vals.map fun v => (v.toNat : Int)⟩
  | .way w => ⟨table, w.keys.map fun k => (k.toNat : Int), w.vals.map fun v => (v.toNat : Int)⟩
  | .relation r =>
    ⟨table, r.keys.map fun k => (k.toNat : Int), r.vals.map fun v => (v.toNat : Int)⟩

/-- The tags of an element are those of its columns. -/
theorem nexts_tagColumns (table : StringTable) (e : Element) (n : Nat) :
    Walk.nexts n (e.tagColumns table) = Walk.nexts n (e.tags table) := by
  cases e with
  | denseNode node =>
    have hpairs : (everyOther node.keysVals).zip (everyOther node.keysVals.tail) =
        (Element.denseNode node).rawTags := zip_everyOther node.keysVals
    rw [tags, ← hpairs]
    exact TagColumns.nexts_eq table _ _ n
  | node | way | relation => exact TagColumns.nexts_eq table _ _ n

/-- Indices that are paired up from two columns by their places, as far as there are both. -/
def PairUp (keys vals : List UInt32) (pairs : List (Int × Int)) : Prop :=
  pairs.length = min keys.length vals.length ∧
    ∀ (i : Nat) (key val : UInt32), keys[i]? = some key → vals[i]? = some val →
      pairs[i]? = some ((key.toNat : Int), (val.toNat : Int))

/-- The raw tags of columns pair up their entries. -/
theorem pairUp_zipTags (keys vals : List UInt32) : PairUp keys vals (zipTags keys vals) := by
  refine ⟨by rw [zipTags, List.length_zip, List.length_map, List.length_map],
    fun i key val hkey hval => ?_⟩
  rw [zipTags, List.getElem?_zip_eq_some, List.getElem?_map, List.getElem?_map, hkey, hval]
  exact ⟨rfl, rfl⟩

/-- All entries of a dense node of a block are in its pairs. -/
theorem flattenTags_of_mem_elements {block : BlockMessage} {n : DenseNode}
    (h : Element.denseNode n ∈ block.elements) : flattenTags n.rawTags = n.keysVals := by
  obtain ⟨group, -, hgroup⟩ := List.mem_flatMap.mp h
  have hmem : n ∈ Walk.toList group.denseNodes := by
    simpa [GroupMessage.elements] using hgroup
  refine DenseWalk.flattenTags_rawTags ?_ hmem
  unfold GroupMessage.denseNodes
  split <;> exact Nat.zero_le _

/-- The tags of an element are the longest beginning of its pairs of indices that can be looked up.
For every element of every block:
- Its tags are what a number of its pairs from the front on stand for, and nothing is given after
  them. That number is the greatest one for which the indices of all keys and values lie inside of
  the string table, at entries that are valid UTF-8. It makes no difference whether the indices are
  paired beforehand or taken from columns of keys and values in turn.
- Looking them up does not shorten the pairs. For nodes, ways and relations they are all that can be
  paired up from the columns of keys and values; those of a dense node are all of its entries. -/
theorem tags_are_longest_prefix {block : BlockMessage} {e : Element} (he : e ∈ block.elements) :
    (∃ n tags, TagWalk.IsLongest block.stringTable e.rawTags n ∧
      List.Forall₂ (TagWalk.Names block.stringTable) (e.rawTags.take n) tags ∧
      Walk.GivesJust (e.tags block.stringTable) tags ∧
      Walk.GivesJust (e.tagColumns block.stringTable) tags) ∧
    (∀ node, e = .node node → PairUp node.keys node.vals e.rawTags) ∧
    (∀ way, e = .way way → PairUp way.keys way.vals e.rawTags) ∧
    (∀ relation, e = .relation relation → PairUp relation.keys relation.vals e.rawTags) ∧
    ∀ node, e = .denseNode node → flattenTags e.rawTags = node.keysVals := by
  refine ⟨?_, ?_, ?_, ?_, ?_⟩
  · obtain ⟨n, tags, hlongest, hnames, hjust⟩ :=
      TagWalk.exists_isLongest block.stringTable e.rawTags
    refine ⟨n, tags, hlongest, hnames, hjust, fun m => ?_⟩
    rw [nexts_tagColumns]
    exact hjust m
  · rintro node rfl
    exact pairUp_zipTags node.keys node.vals
  · rintro way rfl
    exact pairUp_zipTags way.keys way.vals
  · rintro relation rfl
    exact pairUp_zipTags relation.keys relation.vals
  · rintro node rfl
    exact flattenTags_of_mem_elements he

/-- A way whose second key has an entry that is no text. It has a value more than keys. -/
def unreadableWay : WayMessage := ⟨7, [0, 1, 0], [2, 0, 2, 2], none, [], [], []⟩

/-- A block with this way. -/
def unreadableBlock : BlockMessage where
  stringTable := ⟨#["highway".toByteArray, ofOctets [0xFF], "primary".toByteArray]⟩
  groups := [⟨[], none, [unreadableWay], [], []⟩]
  granularity := none
  latOffset := none
  lonOffset := none
  dateGranularity := none

/-- The tags of this way end before the second pair, though the third one can be looked up. -/
theorem tags_end_at_unreadable_key :
    Element.way unreadableWay ∈ unreadableBlock.elements ∧
      (Element.way unreadableWay).rawTags = [(0, 2), (1, 0), (0, 2)] ∧
      Walk.GivesJust ((Element.way unreadableWay).tagColumns unreadableBlock.stringTable)
        [("highway", "primary")] ∧
      PairUp unreadableWay.keys unreadableWay.vals (Element.way unreadableWay).rawTags := by
  have hmem : Element.way unreadableWay ∈ unreadableBlock.elements :=
    List.mem_flatMap.mpr ⟨_, List.mem_cons_self, by simp [GroupMessage.elements]⟩
  obtain ⟨⟨n, tags, -, -, hjust, hcolumns⟩, -, hpairs, -, -⟩ := tags_are_longest_prefix hmem
  have htags : tags = [("highway", "primary")] := by
    rw [← hjust.toList_eq]
    decide +kernel
  rw [htags] at hcolumns
  exact ⟨hmem, by decide, hcolumns, hpairs unreadableWay rfl⟩

end Element

end MapArchive
