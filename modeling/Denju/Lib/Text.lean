import Mathlib.Data.List.DropRight
import Mathlib.Data.List.Basic

/-!
# Text and its UTF-8 bytes

Strings are lists of Unicode scalar values and their encoding is a list of
bytes.  The encoding is the one of the core library, restated on lists, so that
a text and its bytes determine each other.
-/

namespace Lib

/-- A string as the sequence of its Unicode scalar values. -/
abbrev Text := List Char

instance instLawfulBEqText : LawfulBEq Text :=
  inferInstance

/-- A sequence of raw bytes. -/
abbrev Bytes := List UInt8

/-!
## UTF-8
-/

/-- The UTF-8 encoding of a text. -/
def utf8 (text : Text) : Bytes :=
  text.flatMap String.utf8EncodeChar

/-- The text whose UTF-8 encoding is the given bytes, if there is one. -/
def fromUtf8 (bytes : Bytes) : Option Text :=
  bytes.toByteArray.utf8Decode?.map Array.toList

@[simp] theorem utf8_nil : utf8 [] = [] := rfl

@[simp] theorem utf8_append (a b : Text) :
    utf8 (a ++ b) = utf8 a ++ utf8 b := by
  simp [utf8]

theorem utf8Encode_eq_toByteArray (text : Text) :
    text.utf8Encode = (utf8 text).toByteArray := by
  simp [List.utf8Encode, utf8]

theorem fromUtf8_utf8 (text : Text) : fromUtf8 (utf8 text) = some text := by
  have hdecode := List.utf8Decode?_utf8Encode (l := text)
  rw [utf8Encode_eq_toByteArray] at hdecode
  simp [fromUtf8, hdecode]

theorem toByteArray_injective {a b : Bytes}
    (h : a.toByteArray = b.toByteArray) : a = b := by
  have hlist := congrArg (fun bytes : ByteArray => bytes.data.toList) h
  simpa using hlist

theorem utf8_of_fromUtf8 {bytes : Bytes} {text : Text}
    (h : fromUtf8 bytes = some text) : utf8 text = bytes := by
  unfold fromUtf8 at h
  cases hdecode : bytes.toByteArray.utf8Decode? with
  | none =>
      rw [hdecode] at h
      cases h
  | some chars =>
      rw [hdecode] at h
      have htext : chars.toList = text := by
        simpa using h
      have hencode :=
        ByteArray.utf8Encode_get_utf8Decode? (b := bytes.toByteArray)
          (h := by rw [hdecode]; rfl)
      simp only [hdecode, Option.get_some] at hencode
      rw [htext, utf8Encode_eq_toByteArray] at hencode
      exact toByteArray_injective hencode

theorem utf8_injective {a b : Text} (h : utf8 a = utf8 b) : a = b := by
  have hdecode := fromUtf8_utf8 a
  rw [h, fromUtf8_utf8] at hdecode
  injection hdecode with hba
  exact hba.symm

/-!
## Lines
-/

/-- Split after every occurrence of the separator, which stays with its piece. -/
def splitInclusive (separator : Char) : Text -> List Text
  | [] => []
  | c :: rest =>
      if c = separator then
        [c] :: splitInclusive separator rest
      else
        match splitInclusive separator rest with
        | [] => [[c]]
        | piece :: pieces => (c :: piece) :: pieces

theorem splitInclusive_flatten (separator : Char) (text : Text) :
    (splitInclusive separator text).flatten = text := by
  induction text with
  | nil => rfl
  | cons c rest ih =>
      unfold splitInclusive
      by_cases hc : c = separator
      · simp [hc, ih]
      · rw [if_neg hc]
        cases hpieces : splitInclusive separator rest with
        | nil =>
            rw [hpieces] at ih
            simp [← ih]
        | cons piece pieces =>
            rw [hpieces] at ih
            simp [← ih]

theorem splitInclusive_cons_of_ne {separator c : Char} (hc : c ≠ separator)
    (rest : Text) :
    splitInclusive separator (c :: rest) =
      match splitInclusive separator rest with
      | [] => [[c]]
      | piece :: pieces => (c :: piece) :: pieces := by
  rw [splitInclusive, if_neg hc]

theorem splitInclusive_cons_ne_nil (separator c : Char) (rest : Text) :
    splitInclusive separator (c :: rest) ≠ [] := by
  unfold splitInclusive
  split
  · exact List.cons_ne_nil _ _
  · split
    · exact List.cons_ne_nil _ _
    · exact List.cons_ne_nil _ _

/-- A text that ends in the separator splits off in front of any other. -/
theorem splitInclusive_append {separator : Char} {text : Text}
    (h : text = [] ∨ text.getLast? = some separator) (rest : Text) :
    splitInclusive separator (text ++ rest) =
      splitInclusive separator text ++ splitInclusive separator rest := by
  induction text with
  | nil => rfl
  | cons c more ih =>
      have hmore : more = [] ∨ more.getLast? = some separator := by
        cases more with
        | nil => exact Or.inl rfl
        | cons d others =>
            right
            simpa using h
      have hrest := ih hmore
      by_cases hc : c = separator
      · simp [splitInclusive, hc, hrest]
      · cases more with
        | nil =>
            exact absurd (by simpa using h) hc
        | cons d others =>
            have hne := splitInclusive_cons_ne_nil separator d others
            simp only [List.cons_append] at hrest ⊢
            rw [splitInclusive_cons_of_ne hc, splitInclusive_cons_of_ne hc,
              hrest]
            cases hpieces : splitInclusive separator (d :: others) with
            | nil => exact absurd hpieces hne
            | cons piece pieces => rfl

/-- A piece of a split text, which has the separator at its end or nowhere. -/
structure Piece (separator : Char) (piece : Text) : Prop where
  ne_nil : piece ≠ []
  inner : separator ∉ piece.dropLast

/-- Only the last piece may lack the separator. -/
def Sealed (separator : Char) (pieces : List Text) : Prop :=
  forall piece, piece ∈ pieces.dropLast -> piece.getLast? = some separator

theorem piece_of_mem_splitInclusive {separator : Char} {text piece : Text}
    (h : piece ∈ splitInclusive separator text) : Piece separator piece := by
  induction text generalizing piece with
  | nil => cases h
  | cons c rest ih =>
      by_cases hc : c = separator
      · rw [splitInclusive, if_pos hc] at h
        rcases List.mem_cons.mp h with rfl | h
        · exact ⟨List.cons_ne_nil _ _, List.not_mem_nil⟩
        · exact ih h
      · rw [splitInclusive_cons_of_ne hc] at h
        cases hpieces : splitInclusive separator rest with
        | nil =>
            rw [hpieces] at h
            rw [List.mem_singleton.mp h]
            exact ⟨List.cons_ne_nil _ _, List.not_mem_nil⟩
        | cons first pieces =>
            rw [hpieces] at h ih
            rcases List.mem_cons.mp h with rfl | h
            · have hfirst := ih List.mem_cons_self
              constructor
              · exact List.cons_ne_nil _ _
              · rw [List.dropLast_cons_of_ne_nil hfirst.ne_nil]
                intro hmem
                rcases List.mem_cons.mp hmem with heq | hmem
                · exact hc heq.symm
                · exact hfirst.inner hmem
            · exact ih (List.mem_cons_of_mem _ h)

theorem sealed_splitInclusive (separator : Char) (text : Text) :
    Sealed separator (splitInclusive separator text) := by
  induction text with
  | nil =>
      intro piece h
      cases h
  | cons c rest ih =>
      intro piece h
      by_cases hc : c = separator
      · rw [splitInclusive, if_pos hc] at h
        by_cases hrest : splitInclusive separator rest = []
        · rw [hrest] at h
          cases h
        · rw [List.dropLast_cons_of_ne_nil hrest] at h
          rcases List.mem_cons.mp h with rfl | h
          · rw [hc]
            rfl
          · exact ih piece h
      · rw [splitInclusive_cons_of_ne hc] at h
        cases hpieces : splitInclusive separator rest with
        | nil =>
            rw [hpieces] at h
            cases h
        | cons first pieces =>
            have hfirst : Piece separator first := by
              apply @piece_of_mem_splitInclusive _ rest
              rw [hpieces]
              exact List.mem_cons_self
            rw [hpieces] at h ih
            by_cases hmore : pieces = []
            · rw [hmore] at h
              cases h
            · have hends := ih
              rw [Sealed, List.dropLast_cons_of_ne_nil hmore] at hends
              rw [List.dropLast_cons_of_ne_nil hmore] at h
              rcases List.mem_cons.mp h with rfl | h
              · rw [List.getLast?_cons_of_ne_nil hfirst.ne_nil]
                exact hends first List.mem_cons_self
              · exact hends piece (List.mem_cons_of_mem _ h)

theorem Piece.append {separator : Char} {piece next : Text}
    (hpiece : Piece separator piece) (hnext : Piece separator next)
    (hopen : piece.getLast? ≠ some separator) :
    Piece separator (piece ++ next) := by
  constructor
  · exact List.append_ne_nil_of_left_ne_nil hpiece.ne_nil _
  · rw [List.dropLast_append_of_ne_nil hnext.ne_nil]
    intro hmem
    rcases List.mem_append.mp hmem with hmem | hmem
    · rw [← List.dropLast_append_getLast hpiece.ne_nil, List.mem_append,
        List.mem_singleton] at hmem
      rcases hmem with hmem | hmem
      · exact hpiece.inner hmem
      · rw [hmem, List.getLast?_eq_some_getLast hpiece.ne_nil] at hopen
        exact hopen rfl
    · exact hnext.inner hmem

theorem splitInclusive_piece {separator : Char} {piece : Text}
    (h : Piece separator piece) : splitInclusive separator piece = [piece] := by
  induction piece with
  | nil => exact absurd rfl h.ne_nil
  | cons c rest ih =>
      cases rest with
      | nil =>
          unfold splitInclusive
          split
          · rfl
          · rfl
      | cons d more =>
          have hinner := h.inner
          rw [List.dropLast_cons_of_ne_nil (List.cons_ne_nil _ _),
            List.mem_cons, not_or] at hinner
          rw [splitInclusive_cons_of_ne (Ne.symm hinner.1),
            ih ⟨List.cons_ne_nil _ _, hinner.2⟩]

/-- Sealed pieces are what their text splits into. -/
theorem splitInclusive_flatten_pieces {separator : Char} {pieces : List Text}
    (hpieces : forall piece, piece ∈ pieces -> Piece separator piece)
    (hsealed : Sealed separator pieces) :
    splitInclusive separator pieces.flatten = pieces := by
  induction pieces with
  | nil => rfl
  | cons piece rest ih =>
      by_cases hrest : rest = []
      · rw [hrest, List.flatten_singleton]
        exact splitInclusive_piece (hpieces piece List.mem_cons_self)
      · rw [Sealed, List.dropLast_cons_of_ne_nil hrest] at hsealed
        have hends := hsealed piece List.mem_cons_self
        rw [List.flatten_cons, splitInclusive_append (.inr hends),
          splitInclusive_piece (hpieces piece List.mem_cons_self), ih]
        · rfl
        · intro other hother
          exact hpieces other (List.mem_cons_of_mem _ hother)
        · intro other hother
          exact hsealed other (List.mem_cons_of_mem _ hother)

theorem Sealed.terminated {separator : Char} {front rest : List Text}
    (h : Sealed separator (front ++ rest)) (hrest : rest ≠ []) {piece : Text}
    (hpiece : piece ∈ front) : piece.getLast? = some separator := by
  apply h
  rw [List.dropLast_append_of_ne_nil hrest]
  exact List.mem_append_left _ hpiece

theorem Sealed.right {separator : Char} {front rest : List Text}
    (h : Sealed separator (front ++ rest)) : Sealed separator rest := by
  intro piece hpiece
  have hrest : rest ≠ [] := by
    rintro rfl
    cases hpiece
  apply h
  rw [List.dropLast_append_of_ne_nil hrest]
  exact List.mem_append_right _ hpiece

theorem Sealed.left {separator : Char} {front rest : List Text}
    (h : Sealed separator (front ++ rest)) : Sealed separator front := by
  by_cases hrest : rest = []
  · rw [hrest, List.append_nil] at h
    exact h
  · intro piece hpiece
    exact h.terminated hrest ((List.dropLast_subset _) hpiece)

theorem Sealed.append {separator : Char} {front rest : List Text}
    (hfront : forall piece, piece ∈ front -> piece.getLast? = some separator)
    (hrest : Sealed separator rest) : Sealed separator (front ++ rest) := by
  intro piece hpiece
  by_cases hnil : rest = []
  · rw [hnil, List.append_nil] at hpiece
    exact hfront piece ((List.dropLast_subset _) hpiece)
  · rw [List.dropLast_append_of_ne_nil hnil] at hpiece
    rcases List.mem_append.mp hpiece with hpiece | hpiece
    · exact hfront piece hpiece
    · exact hrest piece hpiece

theorem Sealed.glue {separator : Char} {piece next : Text} {rest : List Text}
    (h : Sealed separator (next :: rest)) (hnext : next ≠ []) :
    Sealed separator ((piece ++ next) :: rest) := by
  intro other hother
  by_cases hrest : rest = []
  · rw [hrest] at hother
    cases hother
  · rw [Sealed, List.dropLast_cons_of_ne_nil hrest] at h
    rw [List.dropLast_cons_of_ne_nil hrest] at hother
    rcases List.mem_cons.mp hother with rfl | hother
    · rw [List.getLast?_append_of_ne_nil _ hnext]
      exact h next List.mem_cons_self
    · exact h other (List.mem_cons_of_mem _ hother)

/-- Behind an open piece the next one is read as its end. -/
theorem splitInclusive_flatten_glued {separator : Char}
    {front rest : List Text} {piece next : Text}
    (hpieces : forall other, other ∈ front ++ piece :: next :: rest ->
      Piece separator other)
    (hfront : Sealed separator (front ++ [piece]))
    (hrest : Sealed separator (next :: rest))
    (hopen : piece.getLast? ≠ some separator) :
    splitInclusive separator (front ++ piece :: next :: rest).flatten =
      front ++ (piece ++ next) :: rest := by
  have hnext := hpieces next (by simp)
  have hglued : (front ++ piece :: next :: rest).flatten =
      (front ++ (piece ++ next) :: rest).flatten := by
    simp
  rw [hglued]
  apply splitInclusive_flatten_pieces
  · intro other hother
    rcases List.mem_append.mp hother with hother | hother
    · exact hpieces other (List.mem_append_left _ hother)
    · rcases List.mem_cons.mp hother with rfl | hother
      · exact (hpieces piece (by simp)).append hnext hopen
      · exact hpieces other (by simp [hother])
  · apply Sealed.append
    · intro other hother
      exact hfront.terminated (List.cons_ne_nil _ _) hother
    · exact hrest.glue hnext.ne_nil

/-- Remove the longest suffix of characters that satisfy the predicate. -/
def trimEndMatches (p : Char -> Bool) (text : Text) : Text :=
  text.rdropWhile p

/-- Join pieces with a separator between neighbours. -/
def join (separator : Char) (pieces : List Text) : Text :=
  [separator].intercalate pieces

@[simp] theorem join_nil (separator : Char) : join separator [] = [] := rfl

theorem join_concat (separator : Char) {pieces : List Text}
    (hpieces : pieces ≠ []) (last : Text) :
    join separator (pieces ++ [last]) =
      join separator pieces ++ separator :: last := by
  induction pieces with
  | nil => exact absurd rfl hpieces
  | cons piece rest ih =>
      cases rest with
      | nil => simp [join]
      | cons next more =>
          have hrest := ih (List.cons_ne_nil next more)
          simp only [join, List.cons_append, List.intercalate_cons_cons,
            List.append_assoc] at hrest ⊢
          rw [hrest]

theorem separator_notMem_of_mem_splitOn {separator : Char} {text piece : Text}
    (h : piece ∈ text.splitOn separator) : separator ∉ piece := by
  induction text generalizing piece with
  | nil =>
      have hpiece : piece = [] := by simpa using h
      simp [hpiece]
  | cons c rest ih =>
      rw [List.splitOn_cons_eq_if_modifyHead] at h
      split at h
      · rcases List.mem_cons.mp h with hnil | hrest
        · simp [hnil]
        · exact ih hrest
      · rename_i hc
        cases hpieces : rest.splitOn separator with
        | nil => simp [hpieces] at h
        | cons first more =>
            rw [hpieces] at h ih
            rcases List.mem_cons.mp h with hfirst | hmore
            · have hne : separator ≠ c := by
                intro heq
                simp [heq] at hc
              simp [hfirst, hne, ih List.mem_cons_self]
            · exact ih (List.mem_cons_of_mem first hmore)

theorem join_ne_nil (separator : Char) {pieces : List Text}
    (hpieces : pieces ≠ []) (hne : forall piece, piece ∈ pieces -> piece ≠ []) :
    join separator pieces ≠ [] := by
  cases pieces with
  | nil => exact absurd rfl hpieces
  | cons piece rest =>
      have hpiece := hne piece List.mem_cons_self
      cases rest with
      | nil => simpa [join] using hpiece
      | cons next more => simp [join, List.intercalate_cons_cons, hpiece]

end Lib
