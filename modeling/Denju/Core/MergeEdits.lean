import Denju.Core.MergeLines

/-!
# The edits of a text merge

Two sides clash exactly where different edits of them overlap.  Edits that do
not clash follow one another in their sorted order, so that one pass over the
base applies them all; a side that is merged with itself, or with the base, is
reconstructed.
-/

namespace Denju

open Lib

/-!
## Sorted edits
-/

/-- Behind an edit that it does not overlap, an edit starts where the first one
has stopped. -/
theorem stop_le_start {a b : TextEdit} (ha : a.start ≤ a.stop)
    (hb : b.start ≤ b.stop) (hsorted : a.start ≤ b.start)
    (hapart : editsOverlap a b = false) : a.stop ≤ b.start := by
  by_contra hbefore
  rw [not_le] at hbefore
  have hopen : ¬a.start = a.stop := by omega
  unfold editsOverlap at hapart
  rw [beq_eq_false_iff_ne.mpr hopen] at hapart
  by_cases hinsert : b.start = b.stop
  · rw [beq_iff_eq.mpr hinsert] at hapart
    simp only [Bool.and_eq_false_iff, decide_eq_false_iff_not] at hapart
    omega
  · rw [beq_eq_false_iff_ne.mpr hinsert] at hapart
    simp only [Bool.and_eq_false_iff, decide_eq_false_iff_not] at hapart
    omega

theorem TextEdit.start_le_of_key_le {a b : TextEdit} (h : a.key ≤ b.key) :
    a.start ≤ b.start := by
  rcases Prod.Lex.le_iff.mp h with hlt | ⟨heq, _⟩
  · exact Nat.le_of_lt hlt
  · exact Nat.le_of_eq heq

theorem follows_of_pairwise {cursor : Nat} {edits : List TextEdit}
    (hstarts : forall edit, edit ∈ edits -> cursor ≤ edit.start)
    (happart : edits.Pairwise fun a b => a.stop ≤ b.start) :
    Follows cursor edits := by
  induction edits generalizing cursor with
  | nil => exact trivial
  | cons edit rest ih =>
      rcases List.pairwise_cons.mp happart with ⟨hfirst, hrest⟩
      exact ⟨hstarts edit List.mem_cons_self, ih hfirst hrest⟩

/-- Sorted edits of which no two overlap follow one another. -/
theorem follows_sorted {edits : List TextEdit} (hnodup : edits.Nodup)
    (hcompatible : Compatible editsOverlap edits)
    (hordered : forall edit, edit ∈ edits -> edit.start ≤ edit.stop) :
    Follows 0 (sortByKey TextEdit.key edits) := by
  apply follows_of_pairwise
  · intro edit _
    exact Nat.zero_le _
  · have hperm := sortByKey_perm TextEdit.key edits
    have hdistinct : (sortByKey TextEdit.key edits).Pairwise fun a b =>
        keyLe TextEdit.key a b ∧ a ≠ b :=
      (sortByKey_pairwise TextEdit.key edits).and (hperm.nodup_iff.mpr hnodup)
    apply hdistinct.imp_of_mem
    intro a b ha hb hab
    have hmemA := hperm.mem_iff.mp ha
    have hmemB := hperm.mem_iff.mp hb
    apply stop_le_start (hordered a hmemA) (hordered b hmemB)
      (TextEdit.start_le_of_key_le hab.1)
    rw [Bool.eq_false_iff]
    intro hoverlap
    exact hab.2 (hcompatible a hmemA b hmemB hoverlap)

/-- Where every edit follows, the guard of the pass never fires. -/
theorem applyEdits_of_follows {base : List Text} {cursor : Nat}
    {edits : List TextEdit} (h : Follows cursor edits) :
    applyEdits base cursor edits =
      some (patched base cursor base.length edits).flatten := by
  induction edits generalizing cursor with
  | nil =>
      rw [patched, List.take_length]
      rfl
  | cons edit rest ih =>
      rcases h with ⟨hstart, hrest⟩
      unfold applyEdits
      rw [if_neg (Nat.not_lt.mpr hstart), ih hrest]
      simp only [patched, List.flatten_append]
      rfl

/-- The edits of one side are sorted as they come. -/
theorem Separated.sorted {edits : List TextEdit} (h : Separated edits) :
    sortByKey TextEdit.key edits = edits := by
  apply sortByKey_eq_self
  apply h.apart.imp_of_mem
  intro a b ha _ hapart
  have hspan := h.ordered a ha
  apply Prod.Lex.le_iff.mpr
  left
  show a.start < b.start
  omega

/-!
## The clash of both sides
-/

variable {ext : Externals}

/-- Different edits of both sides overlap. -/
def SidesClash (ext : Externals) (base a b : Text) : Prop :=
  exists edit, edit ∈ textEdits ext (lines base) (lines a) ∧
    exists other, other ∈ textEdits ext (lines base) (lines b) ∧
      edit ≠ other ∧ editsOverlap edit other = true

theorem absorbs_iff_not_sidesClash (hdiff : DiffPartitions ext)
    (base a b : Text) :
    Absorbs editsOverlap (textEdits ext (lines base) (lines a))
        (textEdits ext (lines base) (lines b)) <->
      ¬SidesClash ext base a b := by
  have ha := separated_textEdits hdiff (lines base) (lines a)
  constructor
  · intro habsorbs hclash
    rcases hclash with ⟨edit, hedit, other, hother, hne, hoverlap⟩
    have hmem := habsorbs edit hedit other hother hoverlap
    exact hne (ha.compatible edit hedit other hmem hoverlap)
  · intro hfree edit hedit other hother hoverlap
    by_contra hmem
    apply hfree
    refine ⟨edit, hedit, other, hother, ?_, hoverlap⟩
    intro hsame
    rw [hsame] at hedit
    exact hmem hedit

/-- The edits that are applied when the sides do not clash. -/
def unionEdits (ext : Externals) (base a b : Text) : List TextEdit :=
  textEdits ext (lines base) (lines a) ++
    (textEdits ext (lines base) (lines b)).filter fun edit =>
      edit ∉ textEdits ext (lines base) (lines a)

theorem absorb_sides (hdiff : DiffPartitions ext) (base a b : Text) :
    (SidesClash ext base a b ->
      absorb editsOverlap (textEdits ext (lines base) (lines a))
        (textEdits ext (lines base) (lines b)) = none) ∧
      (¬SidesClash ext base a b ->
        absorb editsOverlap (textEdits ext (lines base) (lines a))
          (textEdits ext (lines base) (lines b)) =
            some (unionEdits ext base a b)) := by
  have hb := separated_textEdits hdiff (lines base) (lines b)
  have habsorb := @absorb_eq _ _ editsOverlap
    (textEdits ext (lines base) (lines a)) _ hb.nodup hb.compatible
  rw [absorbs_iff_not_sidesClash hdiff] at habsorb
  constructor
  · intro hclash
    exact habsorb.2 (not_not.mpr hclash)
  · exact habsorb.1

/-- The edits of both sides lie inside the base and follow one another. -/
theorem unionEdits_follow (hdiff : DiffPartitions ext) {base a b : Text}
    (hfree : ¬SidesClash ext base a b) :
    Follows 0 (sortByKey TextEdit.key (unionEdits ext base a b)) ∧
      forall edit, edit ∈ unionEdits ext base a b ->
        edit.start ≤ edit.stop ∧ edit.stop ≤ (lines base).length := by
  have ha := sided_textEdits hdiff (lines base) (lines a)
  have hb := sided_textEdits hdiff (lines base) (lines b)
  have hinside : forall edit, edit ∈ unionEdits ext base a b ->
      edit.start ≤ edit.stop ∧ edit.stop ≤ (lines base).length := by
    intro edit hedit
    cases List.mem_append.mp hedit with
    | inl hside =>
        exact ⟨ha.separated.ordered edit hside, ha.stops edit hside⟩
    | inr hside =>
        have hmem := List.mem_of_mem_filter hside
        exact ⟨hb.separated.ordered edit hmem, hb.stops edit hmem⟩
  refine ⟨follows_sorted ?_ ?_ fun edit hedit => (hinside edit hedit).1,
    hinside⟩
  · apply List.nodup_append'.mpr
    refine ⟨ha.separated.nodup, hb.separated.nodup.filter _, ?_⟩
    intro edit hedit hfiltered
    exact of_decide_eq_true (List.mem_filter.mp hfiltered).2 hedit
  · exact compatible_absorbed ha.separated.compatible hb.separated.compatible
      ((absorbs_iff_not_sidesClash hdiff base a b).mpr hfree)

theorem mergeText_of_not_clash (hdiff : DiffPartitions ext) {base a b : Text}
    (hfree : ¬SidesClash ext base a b) :
    mergeText ext base a b =
      some (utf8 (patched (lines base) 0 (lines base).length
        (sortByKey TextEdit.key (unionEdits ext base a b))).flatten) := by
  rw [mergeText_eq, (absorb_sides hdiff base a b).2 hfree]
  show (applyEdits (lines base) 0 _).map utf8 = _
  rw [applyEdits_of_follows (unionEdits_follow hdiff hfree).1]
  rfl

theorem mergeText_eq_none_iff (hdiff : DiffPartitions ext) (base a b : Text) :
    mergeText ext base a b = none <-> SidesClash ext base a b := by
  constructor
  · intro hnone
    by_contra hfree
    rw [mergeText_of_not_clash hdiff hfree] at hnone
    cases hnone
  · intro hclash
    rw [mergeText_eq, (absorb_sides hdiff base a b).1 hclash]
    rfl

/-!
## Sides that come back
-/

/-- A diff of equal texts has equal operations only. -/
def DiffKeepsEqual (ext : Externals) : Prop :=
  forall lines op, op ∈ ext.diffOps lines lines -> op.tag = .equal

theorem textEdits_self (hkeeps : DiffKeepsEqual ext) (lines : List Text) :
    textEdits ext lines lines = [] := by
  unfold textEdits
  have hops := hkeeps lines
  generalize ext.diffOps lines lines = ops at hops
  induction ops with
  | nil => rfl
  | cons op rest ih =>
      rw [List.foldl_cons, addOperation, if_pos (hops op List.mem_cons_self)]
      exact ih fun other hother => hops other (List.mem_cons_of_mem _ hother)

/-- The edits of one side alone make that side. -/
theorem mergeText_of_unionEdits (hdiff : DiffPartitions ext)
    {base a b side : Text} (hfree : ¬SidesClash ext base a b)
    (hunion : unionEdits ext base a b =
      textEdits ext (lines base) (lines side)) :
    mergeText ext base a b = some (utf8 side) := by
  have hside := sided_textEdits hdiff (lines base) (lines side)
  rw [mergeText_of_not_clash hdiff hfree, hunion, hside.separated.sorted,
    hside.patches, List.take_length]
  unfold lines
  rw [splitInclusive_flatten]

theorem mergeText_same (hdiff : DiffPartitions ext) (base a : Text) :
    mergeText ext base a a = some (utf8 a) := by
  apply mergeText_of_unionEdits hdiff
  · rw [← absorbs_iff_not_sidesClash hdiff]
    intro edit _ other hother _
    exact hother
  · unfold unionEdits
    rw [List.filter_eq_nil_iff.mpr, List.append_nil]
    intro edit hedit
    simp [hedit]

theorem mergeText_base_left (hdiff : DiffPartitions ext)
    (hkeeps : DiffKeepsEqual ext) (base b : Text) :
    mergeText ext base base b = some (utf8 b) := by
  apply mergeText_of_unionEdits hdiff
  · intro hclash
    rcases hclash with ⟨edit, hedit, _⟩
    rw [textEdits_self hkeeps] at hedit
    cases hedit
  · unfold unionEdits
    rw [textEdits_self hkeeps, List.nil_append, List.filter_eq_self]
    intro edit _
    exact decide_eq_true List.not_mem_nil

theorem mergeText_base_right (hdiff : DiffPartitions ext)
    (hkeeps : DiffKeepsEqual ext) (base a : Text) :
    mergeText ext base a base = some (utf8 a) := by
  apply mergeText_of_unionEdits hdiff
  · intro hclash
    rcases hclash with ⟨_, _, other, hother, _⟩
    rw [textEdits_self hkeeps] at hother
    cases hother
  · unfold unionEdits
    rw [textEdits_self hkeeps, List.filter_nil, List.append_nil]

/-- A merge of texts fails exactly where different edits of both sides overlap,
the edits that it applies follow one another inside the base, and it gives a side
back that is merged with itself or with the base, as the comparison of the bytes
does. -/
theorem mergeText_reconstructs (hdiff : DiffPartitions ext)
    (hkeeps : DiffKeepsEqual ext) (base a b : Text) :
    (mergeText ext base a b = none <-> SidesClash ext base a b) ∧
      (forall edits,
        absorb editsOverlap (textEdits ext (lines base) (lines a))
            (textEdits ext (lines base) (lines b)) = some edits ->
          Follows 0 (sortByKey TextEdit.key edits) ∧
            forall edit, edit ∈ edits ->
              edit.start ≤ edit.stop ∧ edit.stop ≤ (lines base).length) ∧
      mergeText ext base a a = some (utf8 a) ∧
      mergeText ext base base b = some (utf8 b) ∧
      mergeText ext base a base = some (utf8 a) ∧
      mergeFileBytes ext (utf8 base) (utf8 a) (utf8 b) =
        okOr (mergeText ext base a b) .textOverlap := by
  refine ⟨mergeText_eq_none_iff hdiff base a b, ?_, mergeText_same hdiff base a,
    mergeText_base_left hdiff hkeeps base b,
    mergeText_base_right hdiff hkeeps base a, ?_⟩
  · intro edits hedits
    by_cases hclash : SidesClash ext base a b
    · rw [(absorb_sides hdiff base a b).1 hclash] at hedits
      cases hedits
    · rw [(absorb_sides hdiff base a b).2 hclash] at hedits
      cases hedits
      exact unionEdits_follow hdiff hclash
  · unfold mergeFileBytes
    split
    · rename_i hsame
      rw [utf8_injective hsame, mergeText_same hdiff]
      rfl
    · split
      · rename_i hbase
        rw [utf8_injective hbase, mergeText_base_left hdiff hkeeps]
        rfl
      · split
        · rename_i hbase
          rw [utf8_injective hbase, mergeText_base_right hdiff hkeeps]
          rfl
        · rw [fromUtf8_utf8, fromUtf8_utf8, fromUtf8_utf8]
          rfl

theorem Sample.sameLines_self (lines : List Text) :
    Sample.sameLines lines lines = lines.length := by
  induction lines with
  | nil => rfl
  | cons line rest ih =>
      unfold Sample.sameLines
      rw [if_pos rfl, ih]
      rfl

theorem Sample.frontDiff_keepsEqual : DiffKeepsEqual Sample.lineExternals := by
  intro lines op hop
  change op ∈ Sample.frontDiff lines lines at hop
  unfold Sample.frontDiff at hop
  rw [Sample.sameLines_self] at hop
  dsimp only at hop
  rw [if_pos ⟨rfl, rfl⟩] at hop
  split at hop
  · cases hop
  · rw [List.mem_singleton.mp hop]

theorem mergeText_reconstructs_changed :
    mergeText Sample.lineExternals ['x', '\n'] ['y', '\n'] ['x', '\n'] =
      some (utf8 ['y', '\n']) :=
  (mergeText_reconstructs Sample.frontDiff_partitions
    Sample.frontDiff_keepsEqual _ _ ['x', '\n']).2.2.2.2.1

end Denju
