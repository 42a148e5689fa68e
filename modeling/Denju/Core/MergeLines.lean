import Denju.Core.Merge

/-!
# The lines of a text merge

The edits of one side turn the base into that side line by line.  A merge of
both sides keeps whole lines, except where one side replaces the end of the
base by a line that does not end and the other one appends to the base.
-/

namespace Denju

open Lib

/-!
## Patches
-/

/-- The base lines from the cursor up to a bound, with the edits applied. -/
def patched (base : List Text) : Nat -> Nat -> List TextEdit -> List Text
  | cursor, bound, [] => (base.take bound).drop cursor
  | cursor, bound, edit :: rest =>
      (base.take edit.start).drop cursor ++ edit.replacement ++
        patched base edit.stop bound rest

/-- Every edit starts behind the one in front of it. -/
def Follows : Nat -> List TextEdit -> Prop
  | _, [] => True
  | cursor, edit :: rest => cursor ≤ edit.start ∧ Follows edit.stop rest

/-- Edits inside the base, in order. -/
structure Ordered (base : List Text) (edits : List TextEdit) : Prop where
  ordered : forall edit, edit ∈ edits -> edit.start ≤ edit.stop
  bounded : forall edit, edit ∈ edits -> edit.stop ≤ base.length
  follows : edits.Pairwise fun a b => a.stop ≤ b.start

theorem applyEdits_eq_some {base : List Text} {cursor : Nat}
    {edits : List TextEdit} {output : Text}
    (h : applyEdits base cursor edits = some output) :
    output = (patched base cursor base.length edits).flatten ∧
      Follows cursor edits := by
  induction edits generalizing cursor output with
  | nil =>
      cases h
      rw [patched, List.take_length]
      exact ⟨rfl, trivial⟩
  | cons edit rest ih =>
      unfold applyEdits at h
      split at h
      · cases h
      · rename_i hstart
        rcases Option.bind_eq_some_iff.mp h with ⟨tail, htail, houtput⟩
        cases houtput
        rcases ih htail with ⟨rfl, hfollows⟩
        constructor
        · simp only [patched, List.flatten_append]
        · exact ⟨Nat.le_of_not_lt hstart, hfollows⟩

theorem Follows.pairwise {cursor : Nat} {edits : List TextEdit}
    (h : Follows cursor edits)
    (hordered : forall edit, edit ∈ edits -> edit.start ≤ edit.stop) :
    (forall edit, edit ∈ edits -> cursor ≤ edit.start) ∧
      edits.Pairwise fun a b => a.stop ≤ b.start := by
  induction edits generalizing cursor with
  | nil => exact ⟨fun _ h => absurd h List.not_mem_nil, List.Pairwise.nil⟩
  | cons edit rest ih =>
      rcases h with ⟨hstart, hrest⟩
      have hafter := ih hrest fun other hother =>
        hordered other (List.mem_cons_of_mem _ hother)
      have hspan := hordered edit List.mem_cons_self
      constructor
      · intro other hother
        rcases List.mem_cons.mp hother with rfl | hother
        · exact hstart
        · have hgap := hafter.1 other hother
          omega
      · exact List.pairwise_cons.mpr ⟨hafter.1, hafter.2⟩

theorem patched_append (base : List Text) (cursor bound : Nat)
    (init : List TextEdit) (edit : TextEdit) (rest : List TextEdit) :
    patched base cursor bound (init ++ edit :: rest) =
      patched base cursor edit.start init ++ edit.replacement ++
        patched base edit.stop bound rest := by
  induction init generalizing cursor with
  | nil => rfl
  | cons first others ih =>
      simp only [List.cons_append, patched, ih, List.append_assoc]

theorem patched_concat (base : List Text) (cursor bound : Nat)
    (init : List TextEdit) (edit : TextEdit) :
    patched base cursor bound (init ++ [edit]) =
      patched base cursor edit.start init ++ edit.replacement ++
        (base.take bound).drop edit.stop :=
  patched_append base cursor bound init edit []

theorem forall_mem_patched {base : List Text} {P : Text -> Prop} {limit : Nat}
    (hbase : forall line, line ∈ base.take limit -> P line)
    {cursor bound : Nat} {edits : List TextEdit}
    (hedits : forall edit, edit ∈ edits -> edit.start ≤ limit ∧
      forall line, line ∈ edit.replacement -> P line)
    (hbound : bound ≤ limit) :
    forall line, line ∈ patched base cursor bound edits -> P line := by
  have hcopied : forall start stop line, stop ≤ limit ->
      line ∈ (base.take stop).drop start -> P line := by
    intro start stop line hstop hline
    apply hbase
    exact (List.take_prefix_take_left hstop).subset (List.mem_of_mem_drop hline)
  induction edits generalizing cursor with
  | nil =>
      intro line hline
      exact hcopied cursor bound line hbound hline
  | cons edit rest ih =>
      intro line hline
      have hedit := hedits edit List.mem_cons_self
      simp only [patched, List.mem_append] at hline
      rcases hline with (hline | hline) | hline
      · exact hcopied cursor edit.start line hedit.1 hline
      · exact hedit.2 line hline
      · apply ih _ line hline
        intro other hother
        exact hedits other (List.mem_cons_of_mem _ hother)

theorem drop_take_extend {base : List Text} {cursor old new : Nat}
    (hcursor : cursor ≤ old) (hold : old ≤ new) :
    (base.take new).drop cursor =
      (base.take old).drop cursor ++ (base.take new).drop old := by
  have hsplit := List.take_append_drop (old - cursor)
    ((base.take new).drop cursor)
  rw [List.take_drop, List.drop_drop, Nat.add_sub_cancel' hcursor,
    List.take_take, Nat.min_eq_left hold] at hsplit
  exact hsplit.symm

theorem patched_extend {base : List Text} {old new : Nat}
    {edits : List TextEdit} (hold : old ≤ new)
    (hstops : forall edit, edit ∈ edits -> edit.stop ≤ old) :
    patched base 0 new edits =
      patched base 0 old edits ++ (base.take new).drop old := by
  rcases List.eq_nil_or_concat' edits with rfl | ⟨init, last, rfl⟩
  · exact drop_take_extend (Nat.zero_le old) hold
  · have hlast := hstops last (by simp)
    rw [patched_concat, patched_concat, drop_take_extend hlast hold]
    simp only [List.append_assoc]

/-!
## The edits of one side
-/

theorem patched_pushEdit (base : List Text) (edits : List TextEdit)
    (edit : TextEdit) :
    patched base 0 edit.stop (pushEdit edits edit) =
      patched base 0 edit.start edits ++ edit.replacement := by
  have hclosed : forall stop, (base.take stop).drop stop = [] := by
    intro stop
    apply List.drop_eq_nil_of_le
    exact List.length_take_le _ _
  rcases List.eq_nil_or_concat' edits with rfl | ⟨init, last, rfl⟩
  · show patched base 0 edit.stop [edit] = _
    simp only [patched, hclosed, List.append_nil]
  · unfold pushEdit
    simp only [List.getLast?_concat, List.dropLast_concat]
    split
    · rename_i htouch
      rw [patched_concat, patched_concat, ← htouch]
      simp only [hclosed, List.append_nil, List.append_assoc]
    · rw [patched_concat, hclosed, List.append_nil]

/-- The edits of a side, up to the operations that are left. -/
structure Sided (base variant : List Text) (old new : Nat)
    (edits : List TextEdit) : Prop where
  separated : Separated edits
  stops : forall edit, edit ∈ edits -> edit.stop ≤ old
  patches : patched base 0 old edits = variant.take new

theorem take_append_range (variant : List Text) {new newEnd : Nat}
    (h : new ≤ newEnd) :
    variant.take new ++ (variant.take newEnd).drop new =
      variant.take newEnd := by
  have hsplit := @drop_take_extend variant 0 new newEnd (Nat.zero_le new) h
  simpa using hsplit.symm

theorem sided_foldl {base variant : List Text} {ops : List DiffOp}
    {old new : Nat} {edits : List TextEdit}
    (hcovers : Covers base variant old new ops)
    (hedits : Sided base variant old new edits) :
    Sided base variant base.length variant.length
      (ops.foldl (addOperation variant) edits) := by
  induction ops generalizing old new edits with
  | nil =>
      rcases hcovers with ⟨rfl, rfl⟩
      exact hedits
  | cons op rest ih =>
      rcases hcovers with ⟨hstart, hnewStart, hold, hnew, hequal, hrest⟩
      rw [List.foldl_cons]
      apply ih hrest
      by_cases htag : op.tag = .equal
      · rw [addOperation, if_pos htag]
        constructor
        · exact hedits.separated
        · intro edit hedit
          exact le_trans (hedits.stops edit hedit) hold
        · have hsame := hequal htag
          rw [hstart, hnewStart] at hsame
          rw [patched_extend hold hedits.stops, hedits.patches, hsame]
          exact take_append_range variant hnew
      · rw [addOperation, if_neg htag]
        subst old new
        let edit : TextEdit :=
          { start := op.oldStart
            stop := op.oldEnd
            replacement := (variant.take op.newEnd).drop op.newStart }
        have hpush := @separated_pushEdit edits edit hedits.separated hold
          hedits.stops
        constructor
        · exact hpush.1
        · exact hpush.2
        · have hpatch := patched_pushEdit base edits edit
          rw [hedits.patches] at hpatch
          exact hpatch.trans (take_append_range variant hnew)

variable {ext : Externals}

theorem sided_textEdits (hdiff : DiffPartitions ext)
    (base variant : List Text) :
    Sided base variant base.length variant.length
      (textEdits ext base variant) := by
  apply sided_foldl (hdiff base variant)
  constructor
  · exact ⟨fun _ h => absurd h List.not_mem_nil, List.Pairwise.nil⟩
  · exact fun _ h => absurd h List.not_mem_nil
  · rfl

/-- An edit of whole lines, none of which is open unless it is the last one of
its side. -/
structure LineEdit (base : List Text) (edit : TextEdit) : Prop where
  ordered : edit.start ≤ edit.stop
  bounded : edit.stop ≤ base.length
  sealed : Sealed '\n' edit.replacement
  terminated : edit.stop < base.length -> forall line,
    line ∈ edit.replacement -> line.getLast? = some '\n'
  appends : edit.start = base.length -> edit.replacement ≠ [] -> forall line,
    line ∈ base -> line.getLast? = some '\n'

theorem patched_ne_nil {base : List Text} {cursor : Nat}
    {edits : List TextEdit} (hcursor : cursor < base.length)
    (hedits : forall edit, edit ∈ edits ->
      cursor < edit.start ∧ edit.start ≤ base.length) :
    patched base cursor base.length edits ≠ [] := by
  cases edits with
  | nil =>
      rw [patched, List.take_length, Ne, List.drop_eq_nil_iff]
      exact Nat.not_le.mpr hcursor
  | cons edit rest =>
      have hedit := hedits edit List.mem_cons_self
      rw [patched, List.append_assoc]
      apply List.append_ne_nil_of_left_ne_nil
      rw [Ne, List.drop_eq_nil_iff, List.length_take,
        Nat.min_eq_left hedit.2]
      exact Nat.not_le.mpr hedit.1

theorem Sided.lineEdit {base variant : List Text} {edits : List TextEdit}
    (h : Sided base variant base.length variant.length edits)
    (hbase : Sealed '\n' base) (hvariant : Sealed '\n' variant)
    {edit : TextEdit} (hedit : edit ∈ edits) : LineEdit base edit := by
  rcases List.append_of_mem hedit with ⟨init, rest, rfl⟩
  have happart := List.pairwise_append.mp h.separated.apart
  have hpatches := h.patches
  rw [List.take_length, patched_append] at hpatches
  rw [← hpatches] at hvariant
  constructor
  · exact h.separated.ordered edit hedit
  · exact h.stops edit hedit
  · exact hvariant.left.right
  · intro hstop line hline
    apply hvariant.terminated _ (List.mem_append_right _ hline)
    apply patched_ne_nil hstop
    intro other hother
    have hmem : other ∈ init ++ edit :: rest := by simp [hother]
    have hspan := h.separated.ordered other hmem
    have hbound := h.stops other hmem
    have hgap := (List.pairwise_cons.mp happart.2.1).1 other hother
    omega
  · intro hstart hreplacement line hline
    rw [hstart] at hvariant
    by_cases hlast : line ∈ base.dropLast
    · exact hbase line hlast
    · apply hvariant.left.terminated hreplacement
      rw [patched_extend (Nat.sub_le base.length 1), List.take_length]
      · apply List.mem_append_right
        rw [← List.take_append_drop (base.length - 1) base,
          ← List.dropLast_eq_take] at hline
        exact (List.mem_append.mp hline).resolve_left hlast
      · intro other hother
        have hgap := happart.2.2 other hother edit List.mem_cons_self
        omega

/-!
## The lines of a patch

All edits but an appended one patch the base to sealed lines.  The last of them
is open behind an edit that replaces the end of the base.
-/

/-- An edit of the end of the base, and another one that appends to it, where
the first one leaves its last line open. -/
def Joins (base : List Text) (edits others : List TextEdit)
    (line next : Text) : Prop :=
  exists edit, edit ∈ edits ∧ exists other, other ∈ others ∧
    edit.start < base.length ∧ edit.stop = base.length ∧
      edit.replacement.getLast? = some line ∧ line.getLast? ≠ some '\n' ∧
        other.start = base.length ∧ other.replacement.head? = some next

section Patch

variable {base : List Text} {edits : List TextEdit}

theorem terminated_patched (hbase : Sealed '\n' base)
    (hedits : forall edit, edit ∈ edits -> LineEdit base edit)
    {bound : Nat} (hbound : bound < base.length)
    (hstops : forall edit, edit ∈ edits -> edit.stop ≤ bound) :
    forall line, line ∈ patched base 0 bound edits ->
      line.getLast? = some '\n' := by
  apply @forall_mem_patched base (fun line => line.getLast? = some '\n')
    (base.length - 1)
  · rw [← List.dropLast_eq_take]
    exact hbase
  · intro edit hedit
    have hspan := (hedits edit hedit).ordered
    have hstop := hstops edit hedit
    constructor
    · omega
    · exact (hedits edit hedit).terminated (by omega)
  · omega

theorem sealed_patched (hbase : Sealed '\n' base)
    (hedits : forall edit, edit ∈ edits -> LineEdit base edit)
    (hfollows : edits.Pairwise fun a b => a.stop ≤ b.start)
    (hinside : forall edit, edit ∈ edits -> edit.start < base.length) :
    Sealed '\n' (patched base 0 base.length edits) := by
  rcases List.eq_nil_or_concat' edits with rfl | ⟨init, last, rfl⟩
  · rw [patched, List.take_length, List.drop_zero]
    exact hbase
  · have hlast := hedits last (by simp)
    have hfront := @terminated_patched base init hbase
      (fun edit hedit => hedits edit (List.mem_append_left _ hedit)) last.start
      (hinside last (by simp)) (fun edit hedit =>
        (List.pairwise_append.mp hfollows).2.2 edit hedit last
          List.mem_cons_self)
    rw [patched_concat, List.take_length]
    by_cases hstop : last.stop < base.length
    · apply Sealed.append
      · intro line hline
        rcases List.mem_append.mp hline with hline | hline
        · exact hfront line hline
        · exact hlast.terminated hstop line hline
      · rw [← List.take_append_drop last.stop base] at hbase
        exact hbase.right
    · rw [List.drop_eq_nil_of_le (Nat.le_of_not_lt hstop), List.append_nil]
      exact hlast.sealed.append hfront

theorem open_patched_iff (hbase : forall line, line ∈ base ->
      line.getLast? = some '\n')
    (hedits : forall edit, edit ∈ edits -> LineEdit base edit)
    (hfollows : edits.Pairwise fun a b => a.stop ≤ b.start)
    (hinside : forall edit, edit ∈ edits -> edit.start < base.length)
    {line : Text} (hopen : line.getLast? ≠ some '\n') :
    (patched base 0 base.length edits).getLast? = some line <->
      exists edit, edit ∈ edits ∧ edit.stop = base.length ∧
        edit.replacement.getLast? = some line := by
  have hsealed : Sealed '\n' base :=
    fun piece hpiece => hbase piece ((List.dropLast_subset _) hpiece)
  rcases List.eq_nil_or_concat' edits with rfl | ⟨init, last, rfl⟩
  · rw [patched, List.take_length, List.drop_zero]
    constructor
    · intro hlast
      exact absurd (hbase line (List.mem_of_getLast? hlast)) hopen
    · rintro ⟨edit, hedit, _⟩
      cases hedit
  · have hlast := hedits last (by simp)
    have hbefore : forall edit, edit ∈ init -> edit.stop ≤ last.start :=
      fun edit hedit => (List.pairwise_append.mp hfollows).2.2 edit hedit last
        List.mem_cons_self
    have hfront := @terminated_patched base init hsealed
      (fun edit hedit => hedits edit (List.mem_append_left _ hedit)) last.start
      (hinside last (by simp)) hbefore
    rw [patched_concat, List.take_length]
    constructor
    · intro hend
      have hstop : last.stop = base.length := by
        by_contra hne
        have hlt := Nat.lt_of_le_of_ne hlast.bounded hne
        have hdrop : base.drop last.stop ≠ [] := by
          rw [Ne, List.drop_eq_nil_iff]
          omega
        rw [List.getLast?_append_of_ne_nil _ hdrop] at hend
        have hmem := List.mem_of_getLast? hend
        exact hopen (hbase line (List.mem_of_mem_drop hmem))
      rw [hstop, List.drop_length, List.append_nil] at hend
      refine ⟨last, by simp, hstop, ?_⟩
      by_cases hreplacement : last.replacement = []
      · rw [hreplacement, List.append_nil] at hend
        exact absurd (hfront line (List.mem_of_getLast? hend)) hopen
      · rw [List.getLast?_append_of_ne_nil _ hreplacement] at hend
        exact hend
    · rintro ⟨edit, hedit, hstop, hend⟩
      have hsame : edit = last := by
        rcases List.mem_append.mp hedit with hedit | hedit
        · have hgap := hbefore edit hedit
          have hspan := hinside last (by simp)
          omega
        · exact List.mem_singleton.mp hedit
      subst hsame
      have hreplacement : edit.replacement ≠ [] := by
        intro hnil
        rw [hnil] at hend
        cases hend
      rw [hstop, List.drop_length, List.append_nil,
        List.getLast?_append_of_ne_nil _ hreplacement]
      exact hend

theorem exists_appended (hedits : forall edit, edit ∈ edits ->
      LineEdit base edit)
    (hfollows : edits.Pairwise fun a b => a.stop ≤ b.start)
    (hsingle : forall edit, edit ∈ edits -> forall other, other ∈ edits ->
      edit.start = base.length -> other.start = base.length -> edit = other)
    (hnodup : edits.Nodup)
    (hinside : ¬forall edit, edit ∈ edits -> edit.start < base.length) :
    exists init last, edits = init ++ [last] ∧ last.start = base.length ∧
      forall edit, edit ∈ init -> edit.start < base.length := by
  push Not at hinside
  rcases hinside with ⟨edit, hedit, hstart⟩
  rcases List.eq_nil_or_concat' edits with rfl | ⟨init, last, rfl⟩
  · cases hedit
  · have hlastMem : last ∈ init ++ [last] := by simp
    have hspan := (hedits edit hedit).ordered
    have hlast := (hedits last hlastMem).ordered
    have hbound := (hedits last hlastMem).bounded
    have hend : last.start = base.length := by
      rcases List.mem_append.mp hedit with hinit | hsame
      · have hgap := (List.pairwise_append.mp hfollows).2.2 edit hinit last
          List.mem_cons_self
        omega
      · rw [← List.mem_singleton.mp hsame]
        have hstop := (hedits edit hedit).bounded
        omega
    refine ⟨init, last, rfl, hend, ?_⟩
    intro other hother
    have hmem : other ∈ init ++ [last] := List.mem_append_left _ hother
    by_contra hnot
    have hotherSpan := (hedits other hmem).ordered
    have hotherBound := (hedits other hmem).bounded
    have hsame := hsingle other hmem last hlastMem (by omega) hend
    rw [hsame] at hother
    exact (List.nodup_append.mp hnodup).2.2 last hother last
      List.mem_cons_self rfl

/-- Whether every line of the merge is a known one depends on the two lines
that an open end and an appended edit are glued from. -/
theorem lines_patched_iff {known : Text -> Prop} (hbase : Sealed '\n' base)
    (hedits : forall edit, edit ∈ edits -> LineEdit base edit)
    (hfollows : edits.Pairwise fun a b => a.stop ≤ b.start)
    (hsingle : forall edit, edit ∈ edits -> forall other, other ∈ edits ->
      edit.start = base.length -> other.start = base.length -> edit = other)
    (hnodup : edits.Nodup)
    (hpieces : forall line, line ∈ patched base 0 base.length edits ->
      Piece '\n' line ∧ known line) :
    (forall line, line ∈ lines (patched base 0 base.length edits).flatten ->
        known line) <->
      forall line next, Joins base edits edits line next ->
        known (line ++ next) := by
  have hclosed : Sealed '\n' (patched base 0 base.length edits) ->
      (forall line next, ¬Joins base edits edits line next) ->
        ((forall line,
            line ∈ lines (patched base 0 base.length edits).flatten ->
              known line) <->
          forall line next, Joins base edits edits line next ->
            known (line ++ next)) := by
    intro hsealed hapart
    rw [lines, splitInclusive_flatten_pieces
      (fun line hline => (hpieces line hline).1) hsealed]
    constructor
    · intro _ line next hjoins
      exact absurd hjoins (hapart line next)
    · intro _ line hline
      exact (hpieces line hline).2
  by_cases hinside : forall edit, edit ∈ edits -> edit.start < base.length
  · apply hclosed (sealed_patched hbase hedits hfollows hinside)
    rintro line next ⟨_, _, other, hother, _, _, _, _, hstart, _⟩
    have hless := hinside other hother
    omega
  · rcases exists_appended hedits hfollows hsingle hnodup hinside with
      ⟨init, last, rfl, hend, hinit⟩
    have hlastMem : last ∈ init ++ [last] := by simp
    have hlast := hedits last hlastMem
    have hinitEdits : forall edit, edit ∈ init -> LineEdit base edit :=
      fun edit hedit => hedits edit (List.mem_append_left _ hedit)
    have hinitFollows := (List.pairwise_append.mp hfollows).1
    have hbody := sealed_patched hbase hinitEdits hinitFollows hinit
    have hsplit : patched base 0 base.length (init ++ [last]) =
        patched base 0 base.length init ++ last.replacement := by
      have hstop : base.length ≤ last.stop := hend ▸ hlast.ordered
      rw [patched_concat, hend, List.take_length,
        List.drop_eq_nil_of_le hstop, List.append_nil]
    have hjoins : forall line next,
        Joins base (init ++ [last]) (init ++ [last]) line next <->
          (line.getLast? ≠ some '\n' ∧ exists edit, edit ∈ init ∧
            edit.stop = base.length ∧
              edit.replacement.getLast? = some line) ∧
            last.replacement.head? = some next := by
      intro line next
      constructor
      · rintro ⟨edit, hedit, other, hother, hstart, hstop, hline, hopen,
          hother', hnext⟩
        rw [hsingle other hother last hlastMem hother' hend] at hnext
        refine ⟨⟨hopen, edit, ?_, hstop, hline⟩, hnext⟩
        rcases List.mem_append.mp hedit with hedit | hedit
        · exact hedit
        · rw [List.mem_singleton.mp hedit] at hstart
          omega
      · rintro ⟨⟨hopen, edit, hedit, hstop, hline⟩, hnext⟩
        exact ⟨edit, List.mem_append_left _ hedit, last, hlastMem,
          hinit edit hedit, hstop, hline, hopen, hend, hnext⟩
    cases hreplacement : last.replacement with
    | nil =>
        apply hclosed
        · rw [hsplit, hreplacement, List.append_nil]
          exact hbody
        · intro line next hjoin
          have hnext := ((hjoins line next).mp hjoin).2
          rw [hreplacement] at hnext
          cases hnext
    | cons next rest =>
        have hterminated := hlast.appends hend (by simp [hreplacement])
        have hopen := @open_patched_iff base init hterminated hinitEdits
          hinitFollows hinit
        by_cases hbodyOpen : exists line,
            (patched base 0 base.length init).getLast? = some line ∧
              line.getLast? ≠ some '\n'
        · rcases hbodyOpen with ⟨line, hline, hlineOpen⟩
          rcases List.getLast?_eq_some_iff.mp hline with ⟨front, hfront⟩
          have hpair : forall line' next',
              Joins base (init ++ [last]) (init ++ [last]) line' next' <->
                line' = line ∧ next' = next := by
            intro line' next'
            rw [hjoins, hreplacement]
            constructor
            · rintro ⟨⟨hopen', hedit⟩, hnext⟩
              have hline' := (hopen hopen').mpr hedit
              rw [hline] at hline'
              cases hline'
              cases hnext
              exact ⟨rfl, rfl⟩
            · rintro ⟨rfl, rfl⟩
              exact ⟨⟨hlineOpen, (hopen hlineOpen).mp hline⟩, rfl⟩
          have hlist : patched base 0 base.length (init ++ [last]) =
              front ++ line :: next :: rest := by
            rw [hsplit, hfront, hreplacement, List.append_assoc]
            rfl
          rw [hlist] at hpieces ⊢
          have hlines : lines (front ++ line :: next :: rest).flatten =
              front ++ (line ++ next) :: rest := by
            apply splitInclusive_flatten_glued
            · exact fun piece hpiece => (hpieces piece hpiece).1
            · exact hfront ▸ hbody
            · exact hreplacement ▸ hlast.sealed
            · exact hlineOpen
          rw [hlines]
          constructor
          · intro hall line' next' hjoin
            rcases (hpair line' next').mp hjoin with ⟨rfl, rfl⟩
            exact hall _ (by simp)
          · intro hknown piece hpiece
            rcases List.mem_append.mp hpiece with hpiece | hpiece
            · exact (hpieces piece (List.mem_append_left _ hpiece)).2
            · rcases List.mem_cons.mp hpiece with rfl | hpiece
              · exact hknown line next ((hpair line next).mpr ⟨rfl, rfl⟩)
              · exact (hpieces piece (by simp [hpiece])).2
        · apply hclosed
          · rw [hsplit]
            apply hlast.sealed.append
            intro line hline
            by_contra hlineOpen
            apply hbodyOpen
            rcases List.eq_nil_or_concat'
                (patched base 0 base.length init) with hnil | ⟨front, q, hq⟩
            · rw [hnil] at hline
              cases hline
            · rw [hq] at hbody hline
              rcases List.mem_append.mp hline with hline | hline
              · exact absurd (hbody.terminated (List.cons_ne_nil _ _) hline)
                  hlineOpen
              · rw [List.mem_singleton.mp hline] at hlineOpen
                exact ⟨q, by rw [hq, List.getLast?_concat], hlineOpen⟩
          · intro line next' hjoin
            rcases ((hjoins line next').mp hjoin).1 with ⟨hlineOpen, hedit⟩
            exact hbodyOpen ⟨line, (hopen hlineOpen).mpr hedit, hlineOpen⟩

end Patch

/-!
## The merge of both sides
-/

theorem compatible_absorbed {a b : List TextEdit}
    (ha : Compatible editsOverlap a) (hb : Compatible editsOverlap b)
    (habsorbs : Absorbs editsOverlap a b) :
    Compatible editsOverlap (a ++ b.filter fun c => c ∉ a) := by
  have hcross : forall x, x ∈ a -> forall y,
      y ∈ b.filter (fun c => c ∉ a) -> editsOverlap x y = true -> False := by
    intro x hx y hy hclash
    rcases List.mem_filter.mp hy with ⟨hyb, hya⟩
    exact of_decide_eq_true hya (habsorbs x hx y hyb hclash)
  intro x hx y hy hclash
  rcases List.mem_append.mp hx with hx | hx
  · rcases List.mem_append.mp hy with hy | hy
    · exact ha x hx y hy hclash
    · exact (hcross x hx y hy hclash).elim
  · rcases List.mem_append.mp hy with hy | hy
    · rw [editsOverlap_comm] at hclash
      exact (hcross y hy x hx hclash).elim
    · exact hb x (List.mem_of_mem_filter hx) y (List.mem_of_mem_filter hy)
        hclash

/-- One side replaces the end of the base by a line that does not end, and the
other one appends to the base. -/
def GluesLines (ext : Externals) (base a b line next : Text) : Prop :=
  Joins (lines base) (textEdits ext (lines base) (lines a))
      (textEdits ext (lines base) (lines b)) line next ∨
    Joins (lines base) (textEdits ext (lines base) (lines b))
      (textEdits ext (lines base) (lines a)) line next

/-- A line of one of the three texts. -/
def KnownLine (base a b line : Text) : Prop :=
  line ∈ lines base ∨ line ∈ lines a ∨ line ∈ lines b

instance (base a b line : Text) : Decidable (KnownLine base a b line) :=
  inferInstanceAs (Decidable (_ ∨ _ ∨ _))

theorem Sided.mem_variant {base variant : List Text} {edits : List TextEdit}
    (h : Sided base variant base.length variant.length edits)
    {edit : TextEdit} (hedit : edit ∈ edits) {line : Text}
    (hline : line ∈ edit.replacement) : line ∈ variant := by
  rcases List.append_of_mem hedit with ⟨init, rest, rfl⟩
  have hpatches := h.patches
  rw [List.take_length, patched_append] at hpatches
  rw [← hpatches]
  exact List.mem_append_left _ (List.mem_append_right _ hline)

/-- No side glues a line by itself. -/
theorem Separated.not_joins {base : List Text} {edits : List TextEdit}
    (h : Separated edits) (line next : Text) :
    ¬Joins base edits edits line next := by
  rintro ⟨edit, hedit, other, hother, hstart, hstop, _, _, hend, _⟩
  have hne : edit ≠ other := by
    rintro rfl
    omega
  have hsymm : Std.Symm fun x y : TextEdit =>
      x.stop < y.start ∨ y.stop < x.start := ⟨fun x y => Or.symm⟩
  have hpairwise : edits.Pairwise fun x y =>
      x.stop < y.start ∨ y.stop < x.start := h.apart.imp Or.inl
  have hspan := h.ordered other hother
  rcases hpairwise.forall hedit hother hne with hlt | hlt
  · omega
  · omega

theorem joins_union {base : List Text} {a b edits : List TextEdit}
    (ha : Separated a) (hb : Separated b)
    (hmem : forall edit, edit ∈ edits <-> edit ∈ a ∨ edit ∈ b)
    (line next : Text) :
    Joins base edits edits line next <->
      Joins base a b line next ∨ Joins base b a line next := by
  constructor
  · rintro ⟨edit, hedit, other, hother, hjoins⟩
    rcases (hmem edit).mp hedit with hedit | hedit
    · rcases (hmem other).mp hother with hother | hother
      · exact absurd ⟨edit, hedit, other, hother, hjoins⟩
          (ha.not_joins line next)
      · exact .inl ⟨edit, hedit, other, hother, hjoins⟩
    · rcases (hmem other).mp hother with hother | hother
      · exact .inr ⟨edit, hedit, other, hother, hjoins⟩
      · exact absurd ⟨edit, hedit, other, hother, hjoins⟩
          (hb.not_joins line next)
  · rintro (⟨edit, hedit, other, hother, hjoins⟩ |
      ⟨edit, hedit, other, hother, hjoins⟩)
    · exact ⟨edit, (hmem edit).mpr (.inl hedit), other,
        (hmem other).mpr (.inr hother), hjoins⟩
    · exact ⟨edit, (hmem edit).mpr (.inr hedit), other,
        (hmem other).mpr (.inl hother), hjoins⟩

theorem editsOverlap_of_appended {a b : TextEdit} (ha : a.start = a.stop)
    (hb : b.start = b.stop) (hsame : a.start = b.start) :
    editsOverlap a b = true := by
  unfold editsOverlap
  simp [← ha, ← hb, hsame]

/-- What a merge writes, with what holds of its edits. -/
theorem mergeText_eq_some (hdiff : DiffPartitions ext) {base a b : Text}
    {out : Bytes} (hmerge : mergeText ext base a b = some out) :
    exists edits,
      out = utf8 (patched (lines base) 0 (lines base).length edits).flatten ∧
        Follows 0 edits ∧ edits.Nodup ∧ Compatible editsOverlap edits ∧
          forall edit, edit ∈ edits <->
            edit ∈ textEdits ext (lines base) (lines a) ∨
              edit ∈ textEdits ext (lines base) (lines b) := by
  have ha := separated_textEdits hdiff (lines base) (lines a)
  have hb := separated_textEdits hdiff (lines base) (lines b)
  rw [mergeText_eq, Option.bind_eq_some_iff] at hmerge
  rcases hmerge with ⟨edits, hedits, happly⟩
  rcases Option.map_eq_some_iff.mp hedits with ⟨merged, hmerged, rfl⟩
  rcases Option.map_eq_some_iff.mp happly with ⟨output, houtput, rfl⟩
  rcases applyEdits_eq_some houtput with ⟨rfl, hfollows⟩
  have habsorb := @absorb_eq _ _ editsOverlap
    (textEdits ext (lines base) (lines a)) _ hb.nodup hb.compatible
  have habsorbs : Absorbs editsOverlap (textEdits ext (lines base) (lines a))
      (textEdits ext (lines base) (lines b)) := by
    by_contra hnot
    rw [habsorb.2 hnot] at hmerged
    cases hmerged
  rw [habsorb.1 habsorbs] at hmerged
  cases hmerged
  have hperm := sortByKey_perm TextEdit.key
    (textEdits ext (lines base) (lines a) ++
      (textEdits ext (lines base) (lines b)).filter fun c =>
        c ∉ textEdits ext (lines base) (lines a))
  have hcompatible := compatible_absorbed ha.compatible hb.compatible habsorbs
  refine ⟨_, rfl, hfollows, hperm.nodup_iff.mpr ?_, ?_, ?_⟩
  · apply List.nodup_append'.mpr
    refine ⟨ha.nodup, hb.nodup.filter _, ?_⟩
    intro edit hedit hfiltered
    exact of_decide_eq_true (List.mem_filter.mp hfiltered).2 hedit
  · intro x hx y hy hclash
    exact hcompatible x (hperm.mem_iff.mp hx) y (hperm.mem_iff.mp hy) hclash
  · intro edit
    rw [hperm.mem_iff, List.mem_append, List.mem_filter, decide_eq_true_iff]
    tauto

namespace Sample

def sameLines : List Text -> List Text -> Nat
  | line :: base, line' :: variant =>
      if line = line' then sameLines base variant + 1 else 0
  | _, _ => 0

theorem take_sameLines (base variant : List Text) :
    sameLines base variant ≤ base.length ∧
      sameLines base variant ≤ variant.length ∧
        base.take (sameLines base variant) =
          variant.take (sameLines base variant) := by
  induction base, variant using sameLines.induct with
  | case1 base line variant ih =>
      rcases ih with ⟨hbase, hvariant, htake⟩
      simp [sameLines, hbase, hvariant, htake]
  | case2 line base line' variant hne =>
      simp [sameLines, hne]
  | case3 base variant hcases =>
      have hzero : sameLines base variant = 0 := by
        unfold sameLines
        split
        · rename_i line base line' variant
          exact (hcases line base line' variant rfl rfl).elim
        · rfl
      simp [hzero]

/-- A diff that keeps the lines up to the first change and replaces the rest. -/
def frontDiff (base variant : List Text) : List DiffOp :=
  let same := sameLines base variant
  let kept := if same = 0 then [] else [⟨.equal, 0, same, 0, same⟩]
  let tag := if same = base.length then DiffTag.insert else
    if same = variant.length then .delete else .replace
  if same = base.length ∧ same = variant.length then
    kept
  else
    kept ++ [⟨tag, same, base.length, same, variant.length⟩]

def lineExternals : Externals :=
  { Sample.externals with diffOps := frontDiff }

theorem frontDiff_partitions : DiffPartitions lineExternals := by
  intro base variant
  show Covers base variant 0 0 (frontDiff base variant)
  rcases take_sameLines base variant with ⟨hbase, hvariant, htake⟩
  have hkept : forall rest, Covers base variant (sameLines base variant)
      (sameLines base variant) rest -> Covers base variant 0 0
        ((if sameLines base variant = 0 then [] else
          [⟨.equal, 0, sameLines base variant, 0, sameLines base variant⟩]) ++
            rest) := by
    intro rest hrest
    split
    · rename_i hzero
      rw [hzero] at hrest
      exact hrest
    · exact ⟨rfl, rfl, Nat.zero_le _, Nat.zero_le _, fun _ => htake, hrest⟩
  unfold frontDiff
  dsimp only
  split
  · rename_i hsame
    have hcovers := hkept [] hsame
    rw [List.append_nil] at hcovers
    exact hcovers
  · apply hkept
    refine ⟨rfl, rfl, hbase, hvariant, ?_, rfl, rfl⟩
    intro hequal
    simp only at hequal
    split_ifs at hequal

end Sample

end Denju
