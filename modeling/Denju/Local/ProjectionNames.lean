import Denju.Core.Object
import Denju.Core.Skill
import Denju.Lib.Allocation
import Mathlib.Data.List.Chain
import Mathlib.Data.List.Infix
import Mathlib.Order.Interval.Finset.Nat

/-!
# Invocation names

Both harnesses call a managed skill by one name.  A canonical name is kept while
it is unambiguous and no unmanaged skill occupies it; every other skill gets an
alias made of its owner and its name, with a number where that is taken.  An
alias that was given once is kept for as long as it is free.
-/

namespace Denju

open Lib

structure ResourceId where
  uuid : UuidV7
deriving DecidableEq

def ResourceId.key (id : ResourceId) : Bytes :=
  id.uuid.bytes.toList

structure ManagedSkillName where
  resourceId : ResourceId
  owner : Text
  skillName : Text
  previousHarnessName : Option Text
deriving DecidableEq

structure ProjectionAssignment where
  resourceId : ResourceId
  harnessName : Text
  derived : Bool
deriving DecidableEq

/-!
## Aliases
-/

def isAsciiLowercaseOrDigit (byte : UInt8) : Bool :=
  (97 ≤ byte && byte ≤ 122) || (48 ≤ byte && byte ≤ 57)

/-- One pass of the byte loop, with the text so far and the pending hyphen. -/
def sanitizeByte (state : Text × Bool) (byte : UInt8) : Text × Bool :=
  if isAsciiLowercaseOrDigit byte then
    let output :=
      if state.2 && !state.1.isEmpty then state.1 ++ ['-'] else state.1
    (output ++ [Char.ofNat byte.toNat], false)
  else
    (state.1, true)

def sanitizeComponent (value : Text) : Text :=
  let output := ((utf8 value).foldl sanitizeByte ([], false)).1
  if output.isEmpty then "owner".toList else output

def trimHyphens (text : Text) : Text :=
  (text.dropWhile fun c => c == '-').rdropWhile fun c => c == '-'

/-- The cut counts characters, as a valid name and a sanitized owner are ASCII. -/
def collisionAliasAt (skill : ManagedSkillName) (index : Nat) : Text :=
  let owner := sanitizeComponent skill.owner
  let raw := owner ++ '-' :: skill.skillName
  let suffix := if index = 1 then [] else '-' :: Nat.toDigits 10 index
  let room := 64 - suffix.length
  let base := trimHyphens (raw.take room)
  let base := if base.isEmpty then "skill".toList else base
  base ++ suffix

/-- The text behind the last hyphen. -/
def behindLastHyphen (text : Text) : Option Text :=
  if text.contains '-' then
    some (text.rtakeWhile fun c => c != '-')
  else
    none

def withoutPlus : Text -> Text
  | '+' :: rest => rest
  | digits => digits

/-- A decimal number of 64 bits, with an optional plus sign. -/
def parseU64 (text : Text) : Option Nat :=
  let digits := withoutPlus text
  if digits.isEmpty || !digits.all Char.isDigit then
    none
  else
    let value := Nat.ofDigitChars 10 digits 0
    if value < 2 ^ 64 then some value else none

def validCollisionAlias (skill : ManagedSkillName) (candidate : Text) : Bool :=
  if candidate = collisionAliasAt skill 1 then
    true
  else
    match (behindLastHyphen candidate).bind parseU64 with
    | none => false
    | some index => 2 ≤ index && candidate == collisionAliasAt skill index

/-- The loop over the indexes from the given one on, of which `count` are left
below the end of the 64-bit numbers. -/
def collisionAliasFrom (skill : ManagedSkillName) (used : List Text) :
    Nat -> Nat -> Option Text
  | 0, _ => none
  | count + 1, index =>
      let candidate := collisionAliasAt skill index
      if candidate ∈ used then
        collisionAliasFrom skill used count (index + 1)
      else
        some candidate

def collisionAlias (skill : ManagedSkillName) (used : List Text) :
    Option Text :=
  collisionAliasFrom skill used (2 ^ 64 - 1) 1

/-!
## Allocation

The names in use are a set; the model keeps them in a list and only asks for
membership.
-/

def collides (skills : List ManagedSkillName) (reservedNames : List Text)
    (skill : ManagedSkillName) : Bool :=
  1 < (skills.filter fun other => other.skillName = skill.skillName).length ||
    reservedNames.contains skill.skillName

/-- The names in use once every canonical name that stays is reserved. -/
def canonicalNames (skills : List ManagedSkillName)
    (reservedNames : List Text) (ordered : List ManagedSkillName) :
    List Text :=
  (ordered.filter fun skill => !collides skills reservedNames skill).map
    ManagedSkillName.skillName ++ reservedNames

/-- The earlier alias that a colliding skill lays claim to. -/
def stickyClaim (skills : List ManagedSkillName) (reservedNames : List Text)
    (skill : ManagedSkillName) : Option Text :=
  if collides skills reservedNames skill then
    skill.previousHarnessName.filter (validCollisionAlias skill)
  else
    none

def harnessName (skills : List ManagedSkillName) (reservedNames : List Text)
    (sticky : List (ResourceId × Text)) (skill : ManagedSkillName)
    (used : List Text) : Option Text :=
  if !collides skills reservedNames skill then
    some skill.skillName
  else
    match sticky.lookup skill.resourceId with
    | some previous => some previous
    | none => collisionAlias skill used

def orderedSkills (skills : List ManagedSkillName) : List ManagedSkillName :=
  sortByKey (fun skill => skill.resourceId.key) skills

def assignment (skill : ManagedSkillName) (harnessName : Text) :
    ProjectionAssignment where
  resourceId := skill.resourceId
  harnessName := harnessName
  derived := harnessName != skill.skillName

def allocateProjectionNames (skills : List ManagedSkillName)
    (reservedNames : List Text) : Option (List ProjectionAssignment) :=
  let ordered := orderedSkills skills
  let used := canonicalNames skills reservedNames ordered
  let (used, sticky) :=
    admitClaims ManagedSkillName.resourceId
      (stickyClaim skills reservedNames) ordered (used, [])
  (allocate (harnessName skills reservedNames sticky) ordered used).map
    fun named => named.map fun entry => assignment entry.1 entry.2

/-!
## Every alias is a skill name

The pieces of an alias have name characters only, no two hyphens in a row and
no hyphen at either end; joining two such pieces with a hyphen keeps this, and
cutting and trimming restores it.
-/

def NoDoubleHyphen (text : Text) : Prop :=
  text.IsChain fun a b => ¬(a = '-' ∧ b = '-')

structure Hyphenated (text : Text) : Prop where
  characters : forall c, c ∈ text -> isNameCharacter c = true
  single : NoDoubleHyphen text
  first : text.head? ≠ some '-'
  last : text.getLast? ≠ some '-'

theorem zip_tail_contains_iff (text : Text) :
    (text.zip text.tail).contains ('-', '-') = false <->
      NoDoubleHyphen text := by
  unfold NoDoubleHyphen
  induction text with
  | nil => simp
  | cons a rest ih =>
      cases rest with
      | nil => simp
      | cons b more =>
          rw [List.isChain_cons_cons, ← ih]
          show ((a, b) :: (b :: more).zip more).contains ('-', '-') = false <->
            _ ∧ ((b :: more).zip more).contains ('-', '-') = false
          rw [List.contains_cons, Bool.or_eq_false_iff, beq_eq_false_iff_ne,
            ne_eq, Prod.mk.injEq, @eq_comm _ '-' a, @eq_comm _ '-' b]

theorem validateSkillName_eq_ok {name : Text} :
    validateSkillName name = .ok () <->
      1 ≤ name.length ∧ name.length ≤ 64 ∧ Hyphenated name := by
  unfold validateSkillName
  constructor
  · intro h
    split at h
    · cases h
    · rename_i hlength
      split at h
      · cases h
      · rename_i hshape
        simp only [not_or, not_lt] at hlength hshape
        refine ⟨hlength.1, hlength.2, ?_, ?_, hshape.1, hshape.2.1⟩
        · have hall : name.all isNameCharacter = true := by
            simpa using hshape.2.2.2
          exact List.all_eq_true.mp hall
        · apply (zip_tail_contains_iff name).mp
          simpa using hshape.2.2.1
  · rintro ⟨hpos, hmax, hshape⟩
    have hall : name.all isNameCharacter = true :=
      List.all_eq_true.mpr hshape.characters
    have hsingle := (zip_tail_contains_iff name).mpr hshape.single
    rw [if_neg (by omega), if_neg]
    intro hbad
    rcases hbad with hfirst | hlast | hdouble | hother
    · exact hshape.first hfirst
    · exact hshape.last hlast
    · rw [hsingle] at hdouble
      cases hdouble
    · exact hother hall

namespace Hyphenated

theorem append {a b : Text} (ha : Hyphenated a) (hb : Hyphenated b)
    (hne : a ≠ []) (hne' : b ≠ []) : Hyphenated (a ++ '-' :: b) := by
  constructor
  · intro c hc
    rcases List.mem_append.mp hc with hleft | hright
    · exact ha.characters c hleft
    · rcases List.mem_cons.mp hright with rfl | hright
      · decide
      · exact hb.characters c hright
  · unfold NoDoubleHyphen
    rw [List.isChain_append]
    refine ⟨ha.single, ?_, ?_⟩
    · rw [List.isChain_cons]
      refine ⟨?_, hb.single⟩
      rintro c hc ⟨_, rfl⟩
      exact hb.first hc
    · rintro c hc d hd ⟨rfl, _⟩
      exact ha.last hc
  · rw [List.head?_append_of_ne_nil _ hne]
    exact ha.first
  · rw [List.getLast?_append_of_ne_nil _ (List.cons_ne_nil _ _),
      List.getLast?_cons_of_ne_nil hne']
    exact hb.last

theorem nil : Hyphenated [] :=
  ⟨fun c hc => absurd hc List.not_mem_nil, List.isChain_nil, by simp, by simp⟩

theorem singleton {c : Char} (hc : isNameCharacter c = true)
    (hne : c ≠ '-') : Hyphenated [c] := by
  refine ⟨?_, List.isChain_singleton c, by simpa using hne, by simpa using hne⟩
  intro d hd
  rw [List.mem_singleton.mp hd]
  exact hc

/-- A further character that is no hyphen. -/
theorem concat {text : Text} (h : Hyphenated text) {c : Char}
    (hc : isNameCharacter c = true) (hne : c ≠ '-') :
    Hyphenated (text ++ [c]) := by
  constructor
  · intro d hd
    rcases List.mem_append.mp hd with hleft | hright
    · exact h.characters d hleft
    · rw [List.mem_singleton.mp hright]
      exact hc
  · unfold NoDoubleHyphen
    rw [List.isChain_append]
    refine ⟨h.single, List.isChain_singleton c, ?_⟩
    rintro a ha b hb ⟨_, rfl⟩
    exact hne (by simpa using hb)
  · cases text with
    | nil => simpa using hne
    | cons a rest => exact h.first
  · rw [List.getLast?_concat]
    simpa using hne

end Hyphenated

theorem isNameCharacter_of_byte {byte : UInt8}
    (h : isAsciiLowercaseOrDigit byte = true) :
    isNameCharacter (Char.ofNat byte.toNat) = true ∧
      Char.ofNat byte.toNat ≠ '-' := by
  have hbytes : forall n, n < 256 ->
      isAsciiLowercaseOrDigit (UInt8.ofNat n) = true ->
        isNameCharacter (Char.ofNat n) = true ∧ Char.ofNat n ≠ '-' := by
    decide +kernel
  apply hbytes byte.toNat byte.toNat_lt
  rw [UInt8.ofNat_toNat]
  exact h

theorem hyphenated_sanitizeByte {state : Text × Bool} (byte : UInt8)
    (h : Hyphenated state.1) : Hyphenated (sanitizeByte state byte).1 := by
  unfold sanitizeByte
  split
  · rename_i hbyte
    rcases isNameCharacter_of_byte hbyte with ⟨hc, hne⟩
    dsimp only
    split
    · rename_i hpending
      have hnonempty : state.1 ≠ [] := by
        intro hnil
        simp [hnil] at hpending
      rw [List.append_assoc]
      exact h.append (Hyphenated.singleton hc hne) hnonempty
        (List.cons_ne_nil _ _)
    · exact h.concat hc hne
  · exact h

theorem hyphenated_sanitizeComponent (value : Text) :
    Hyphenated (sanitizeComponent value) ∧ sanitizeComponent value ≠ [] := by
  have hfold : forall (bytes : Bytes) (state : Text × Bool),
      Hyphenated state.1 -> Hyphenated (bytes.foldl sanitizeByte state).1 := by
    intro bytes
    induction bytes with
    | nil =>
        intro state hstate
        exact hstate
    | cons byte rest ih =>
        intro state hstate
        exact ih _ (hyphenated_sanitizeByte byte hstate)
  unfold sanitizeComponent
  dsimp only
  split
  · constructor
    · exact (validateSkillName_eq_ok.mp (by decide)).2.2
    · decide
  · rename_i hempty
    constructor
    · exact hfold _ _ Hyphenated.nil
    · intro hnil
      rw [hnil] at hempty
      exact hempty rfl

theorem hyphenated_trimHyphens {text : Text}
    (hcharacters : forall c, c ∈ text -> isNameCharacter c = true)
    (hsingle : NoDoubleHyphen text) : Hyphenated (trimHyphens text) := by
  have hsuffix : text.dropWhile (fun c => c == '-') <:+ text :=
    List.dropWhile_suffix _
  have hprefix : trimHyphens text <+: text.dropWhile (fun c => c == '-') :=
    List.rdropWhile_prefix _ _
  have hwithin : trimHyphens text <:+: text :=
    hprefix.isInfix.trans hsuffix.isInfix
  constructor
  · intro c hc
    exact hcharacters c (hwithin.subset hc)
  · exact hsingle.infix hwithin
  · intro hfirst
    have hdropped : (text.dropWhile fun c => c == '-').head? = some '-' := by
      rcases hprefix with ⟨rest, hrest⟩
      rw [← hrest, List.head?_append, hfirst]
      rfl
    have hnot := List.head?_dropWhile_not (fun c => c == '-') text
    rw [hdropped] at hnot
    simp at hnot
  · intro hlast
    have hne : trimHyphens text ≠ [] := by
      intro hnil
      rw [hnil] at hlast
      cases hlast
    have hnot := List.rdropWhile_last_not (fun c => c == '-')
      (text.dropWhile fun c => c == '-') hne
    have hvalue := List.getLast?_eq_some_getLast hne
    rw [hlast] at hvalue
    apply hnot
    rw [beq_iff_eq]
    exact (Option.some.inj hvalue).symm

theorem isNameCharacter_of_isDigit {c : Char} (h : c.isDigit = true) :
    isNameCharacter c = true ∧ c ≠ '-' := by
  constructor
  · rw [Char.isDigit, Bool.and_eq_true] at h
    simp only [isNameCharacter, Bool.or_eq_true, Bool.and_eq_true]
    exact Or.inl (Or.inr h)
  · rintro rfl
    exact absurd h (by decide)

theorem hyphenated_toDigits (n : Nat) : Hyphenated (Nat.toDigits 10 n) := by
  have hdigit : forall c, c ∈ Nat.toDigits 10 n ->
      isNameCharacter c = true ∧ c ≠ '-' := fun c hc =>
    isNameCharacter_of_isDigit
      (Nat.isDigit_of_mem_toDigits (by decide) (by decide) hc)
  constructor
  · intro c hc
    exact (hdigit c hc).1
  · unfold NoDoubleHyphen
    rw [List.isChain_iff_getElem]
    rintro i hi ⟨hsame, _⟩
    exact (hdigit _ (List.getElem_mem _)).2 hsame
  · intro hfirst
    exact (hdigit _ (List.mem_of_mem_head? hfirst)).2 rfl
  · intro hlast
    exact (hdigit _ (List.mem_of_mem_getLast? hlast)).2 rfl

/-!
An alias is its base, cut to the room that the suffix leaves, and the suffix.
-/

def aliasSuffix (index : Nat) : Text :=
  if index = 1 then [] else '-' :: Nat.toDigits 10 index

def aliasBase (skill : ManagedSkillName) (index : Nat) : Text :=
  trimHyphens ((sanitizeComponent skill.owner ++ '-' :: skill.skillName).take
    (64 - (aliasSuffix index).length))

theorem length_aliasSuffix_le {index : Nat} (h : index < 2 ^ 64) :
    (aliasSuffix index).length ≤ 21 := by
  unfold aliasSuffix
  split
  · exact Nat.zero_le 21
  · have hdigits : (Nat.toDigits 10 index).length ≤ 20 := by
      rw [Nat.length_toDigits_le_iff (by decide) (by decide)]
      omega
    rw [List.length_cons]
    omega

theorem length_trimHyphens_le (text : Text) :
    (trimHyphens text).length ≤ text.length :=
  ((List.rdropWhile_prefix _ _).length_le).trans
    (List.dropWhile_suffix _).length_le

theorem trimHyphens_ne_nil {text : Text} {c : Char} (h : text.head? = some c)
    (hne : c ≠ '-') : trimHyphens text ≠ [] := by
  cases text with
  | nil => cases h
  | cons d rest =>
      cases h
      have hbeq : (c == '-') = false := beq_false_of_ne hne
      unfold trimHyphens
      rw [List.dropWhile_cons_of_neg (by simp [hbeq])]
      intro hnil
      have hall := List.rdropWhile_eq_nil_iff.mp hnil c List.mem_cons_self
      exact hne (eq_of_beq hall)

theorem aliasBase_ne_nil {skill : ManagedSkillName} {index : Nat}
    (hindex : index < 2 ^ 64) : aliasBase skill index ≠ [] := by
  rcases hyphenated_sanitizeComponent skill.owner with ⟨howner, hne⟩
  have hlength := length_aliasSuffix_le hindex
  cases hvalue : sanitizeComponent skill.owner with
  | nil => exact absurd hvalue hne
  | cons c rest =>
      have hc : c ≠ '-' := by
        intro hc
        apply howner.first
        rw [hvalue, hc]
        rfl
      unfold aliasBase
      apply @trimHyphens_ne_nil _ c _ hc
      rw [hvalue, List.head?_take, if_neg (by omega)]
      rfl

theorem collisionAliasAt_eq {skill : ManagedSkillName} {index : Nat}
    (hindex : index < 2 ^ 64) : collisionAliasAt skill index =
    aliasBase skill index ++ aliasSuffix index := by
  have hempty : (aliasBase skill index).isEmpty = false := by
    cases hbase : aliasBase skill index with
    | nil => exact absurd hbase (aliasBase_ne_nil hindex)
    | cons c rest => rfl
  show (if (aliasBase skill index).isEmpty then "skill".toList else
    aliasBase skill index) ++ aliasSuffix index = _
  rw [hempty]
  rfl

theorem hyphenated_aliasBase {skill : ManagedSkillName} {index : Nat}
    (hname : validateSkillName skill.skillName = .ok ()) :
    Hyphenated (aliasBase skill index) := by
  rcases validateSkillName_eq_ok.mp hname with ⟨hpos, _, hshape⟩
  rcases hyphenated_sanitizeComponent skill.owner with ⟨howner, hne⟩
  have hraw := howner.append hshape hne (List.ne_nil_of_length_pos hpos)
  apply hyphenated_trimHyphens
  · intro c hc
    exact hraw.characters c (List.mem_of_mem_take hc)
  · exact hraw.single.take _

theorem validateSkillName_collisionAliasAt {skill : ManagedSkillName}
    {index : Nat} (hname : validateSkillName skill.skillName = .ok ())
    (hindex : index < 2 ^ 64) :
    validateSkillName (collisionAliasAt skill index) = .ok () := by
  have hbase := @hyphenated_aliasBase skill index hname
  have hne := @aliasBase_ne_nil skill index hindex
  have hsuffix := length_aliasSuffix_le hindex
  have hlength : (aliasBase skill index).length ≤
      64 - (aliasSuffix index).length :=
    (length_trimHyphens_le _).trans (List.length_take_le _ _)
  have hpos := List.length_pos_of_ne_nil hne
  rw [collisionAliasAt_eq hindex, validateSkillName_eq_ok, List.length_append]
  refine ⟨by omega, by omega, ?_⟩
  unfold aliasSuffix
  split
  · rw [List.append_nil]
    exact hbase
  · exact hbase.append (hyphenated_toDigits index) hne Nat.toDigits_ne_nil

/-!
## Recognising an alias
-/

theorem behindLastHyphen_append {text digits : Text} (h : '-' ∉ digits) :
    behindLastHyphen (text ++ '-' :: digits) = some digits := by
  have hcontains : (text ++ '-' :: digits).contains '-' = true := by
    simp
  have hall : forall c, c ∈ digits.reverse -> (c != '-') = true := by
    intro c hc
    rw [bne_iff_ne]
    rintro rfl
    exact h (List.mem_reverse.mp hc)
  unfold behindLastHyphen
  rw [if_pos hcontains, List.rtakeWhile, List.reverse_append,
    List.reverse_cons, List.append_assoc, List.takeWhile_append_of_pos hall]
  simp

theorem hyphen_notMem_toDigits (n : Nat) : '-' ∉ Nat.toDigits 10 n := by
  intro hmem
  have hdigit := Nat.isDigit_of_mem_toDigits (by decide) (by decide) hmem
  exact absurd hdigit (by decide)

theorem parseU64_toDigits {n : Nat} (h : n < 2 ^ 64) :
    parseU64 (Nat.toDigits 10 n) = some n := by
  have hdigit : forall c, c ∈ Nat.toDigits 10 n -> c.isDigit = true :=
    fun c hc => Nat.isDigit_of_mem_toDigits (by decide) (by decide) hc
  have hvalue := @Nat.ofDigitChars_ten_toDigits n
  have hstripped : withoutPlus (Nat.toDigits 10 n) = Nat.toDigits 10 n := by
    unfold withoutPlus
    split
    · rename_i rest hplus
      have hdigitPlus := hdigit '+' (by rw [hplus]; exact List.mem_cons_self)
      exact absurd hdigitPlus (by decide)
    · rfl
  have hempty : (Nat.toDigits 10 n).isEmpty = false :=
    List.isEmpty_eq_false_iff.mpr Nat.toDigits_ne_nil
  have hall : (Nat.toDigits 10 n).all Char.isDigit = true :=
    List.all_eq_true.mpr hdigit
  unfold parseU64
  rw [hstripped]
  dsimp only
  rw [hempty, hall, hvalue]
  exact if_pos h

theorem parseU64_lt {text : Text} {n : Nat} (h : parseU64 text = some n) :
    n < 2 ^ 64 := by
  unfold parseU64 at h
  dsimp only at h
  by_cases hbad : ((withoutPlus text).isEmpty ||
      !(withoutPlus text).all Char.isDigit) = true
  · rw [if_pos hbad] at h
    cases h
  · rw [if_neg hbad] at h
    by_cases hbound : Nat.ofDigitChars 10 (withoutPlus text) 0 < 2 ^ 64
    · rw [if_pos hbound] at h
      rw [← Option.some.inj h]
      exact hbound
    · rw [if_neg hbound] at h
      cases h

theorem behindLastHyphen_collisionAliasAt {skill : ManagedSkillName}
    {index : Nat} (hindex : index < 2 ^ 64) (hlarge : 2 ≤ index) :
    behindLastHyphen (collisionAliasAt skill index) =
      some (Nat.toDigits 10 index) := by
  rw [collisionAliasAt_eq hindex, aliasSuffix, if_neg (by omega)]
  exact behindLastHyphen_append (hyphen_notMem_toDigits index)

theorem collisionAliasAt_injective {skill : ManagedSkillName} {i j : Nat}
    (hi : i < 2 ^ 64) (hj : j < 2 ^ 64) (hi' : 2 ≤ i) (hj' : 2 ≤ j)
    (h : collisionAliasAt skill i = collisionAliasAt skill j) : i = j := by
  have hdigits := @behindLastHyphen_collisionAliasAt skill i hi hi'
  rw [h, behindLastHyphen_collisionAliasAt hj hj'] at hdigits
  have hparsed := congrArg parseU64 (Option.some.inj hdigits)
  rw [parseU64_toDigits hi, parseU64_toDigits hj] at hparsed
  exact (Option.some.inj hparsed).symm

/-- The recognised aliases are those of the indexes of 64 bits. -/
theorem validCollisionAlias_iff {skill : ManagedSkillName}
    {candidate : Text} :
    validCollisionAlias skill candidate = true <->
      exists index, 1 ≤ index ∧ index < 2 ^ 64 ∧
        candidate = collisionAliasAt skill index := by
  unfold validCollisionAlias
  constructor
  · intro h
    split at h
    · rename_i hfirst
      exact ⟨1, le_refl 1, by decide, hfirst⟩
    · split at h
      · cases h
      · rename_i index hparsed
        rw [Bool.and_eq_true, decide_eq_true_iff, beq_iff_eq] at h
        refine ⟨index, by omega, ?_, h.2⟩
        rcases Option.bind_eq_some_iff.mp hparsed with ⟨suffix, _, hsuffix⟩
        exact parseU64_lt hsuffix
  · rintro ⟨index, hpos, hindex, rfl⟩
    split
    · rfl
    · rename_i hfirst
      have hlarge : 2 ≤ index := by
        by_contra hsmall
        have hone : index = 1 := by omega
        rw [hone] at hfirst
        exact hfirst rfl
      rw [behindLastHyphen_collisionAliasAt hindex hlarge, Option.bind_some,
        parseU64_toDigits hindex]
      simp [hlarge]

/-!
## A free alias

The indexes from 2 on give distinct aliases, so the loop stops as long as fewer
names are in use than there are such indexes.
-/

theorem collisionAliasFrom_eq_some {skill : ManagedSkillName}
    {used : List Text} {count index : Nat} {name : Text}
    (h : collisionAliasFrom skill used count index = some name) :
    name ∉ used ∧ exists found, index ≤ found ∧ found < index + count ∧
      name = collisionAliasAt skill found := by
  induction count generalizing index with
  | zero => cases h
  | succ count ih =>
      unfold collisionAliasFrom at h
      dsimp only at h
      by_cases hused : collisionAliasAt skill index ∈ used
      · rw [if_pos hused] at h
        rcases ih h with ⟨hfree, found, hlow, hhigh, hname⟩
        exact ⟨hfree, found, by omega, by omega, hname⟩
      · rw [if_neg hused] at h
        cases h
        exact ⟨hused, index, le_refl index, by omega, rfl⟩

theorem collisionAliasFrom_eq_none {skill : ManagedSkillName}
    {used : List Text} {count index : Nat}
    (h : collisionAliasFrom skill used count index = none) :
    forall i, index ≤ i -> i < index + count ->
      collisionAliasAt skill i ∈ used := by
  induction count generalizing index with
  | zero =>
      intro i hlow hhigh
      omega
  | succ count ih =>
      unfold collisionAliasFrom at h
      dsimp only at h
      by_cases hused : collisionAliasAt skill index ∈ used
      · rw [if_pos hused] at h
        intro i hlow hhigh
        rcases Nat.eq_or_lt_of_le hlow with rfl | hlater
        · exact hused
        · exact ih h i hlater (by omega)
      · rw [if_neg hused] at h
        cases h

theorem collisionAlias_eq_some {skill : ManagedSkillName} {used : List Text}
    {name : Text} (h : collisionAlias skill used = some name) :
    name ∉ used ∧ validCollisionAlias skill name = true := by
  rcases collisionAliasFrom_eq_some h with ⟨hfree, index, hlow, hhigh, hname⟩
  refine ⟨hfree, validCollisionAlias_iff.mpr ⟨index, hlow, ?_, hname⟩⟩
  omega

theorem exists_collisionAlias (skill : ManagedSkillName) {used : List Text}
    (h : used.length < 2 ^ 64 - 2) :
    exists name, collisionAlias skill used = some name := by
  cases hvalue : collisionAlias skill used with
  | some name => exact ⟨name, rfl⟩
  | none =>
      have hall := collisionAliasFrom_eq_none hvalue
      have hinjective : Set.InjOn (collisionAliasAt skill)
          (Finset.Ico 2 (2 ^ 64)) := by
        intro i hi j hj hsame
        rw [Finset.coe_Ico, Set.mem_Ico] at hi hj
        exact collisionAliasAt_injective hi.2 hj.2 hi.1 hj.1 hsame
      have hsubset : (Finset.Ico 2 (2 ^ 64)).image (collisionAliasAt skill) ⊆
          used.toFinset := by
        intro name hname
        rcases Finset.mem_image.mp hname with ⟨i, hi, rfl⟩
        rw [Finset.mem_Ico] at hi
        exact List.mem_toFinset.mpr (hall i (by omega) (by omega))
      have hcard := Finset.card_le_card hsubset
      rw [Finset.card_image_of_injOn hinjective, Nat.card_Ico] at hcard
      have hlength := hcard.trans used.toFinset_card_le
      omega

/-!
## The run of the allocator
-/

theorem validateSkillName_of_validCollisionAlias {skill : ManagedSkillName}
    {name : Text} (hname : validateSkillName skill.skillName = .ok ())
    (h : validCollisionAlias skill name = true) :
    validateSkillName name = .ok () := by
  rcases validCollisionAlias_iff.mp h with ⟨index, _, hindex, rfl⟩
  exact validateSkillName_collisionAliasAt hname hindex

theorem stickyClaim_eq_some {skills : List ManagedSkillName}
    {reservedNames : List Text} {skill : ManagedSkillName} {name : Text} :
    stickyClaim skills reservedNames skill = some name <->
      collides skills reservedNames skill = true ∧
        skill.previousHarnessName = some name ∧
          validCollisionAlias skill name = true := by
  unfold stickyClaim
  by_cases hcollides : collides skills reservedNames skill = true
  · rw [if_pos hcollides, Option.filter_eq_some_iff]
    simp [hcollides]
  · rw [if_neg hcollides]
    simp [hcollides]

theorem mem_canonicalNames {skills ordered : List ManagedSkillName}
    {reservedNames : List Text} {name : Text} :
    name ∈ canonicalNames skills reservedNames ordered <->
      (exists skill, skill ∈ ordered ∧
        collides skills reservedNames skill = false ∧
          skill.skillName = name) ∨
      name ∈ reservedNames := by
  unfold canonicalNames
  rw [List.mem_append, List.mem_map]
  simp only [List.mem_filter, Bool.not_eq_true', and_assoc]

/-- Two skills of one name collide. -/
theorem collides_of_same_name {skills : List ManagedSkillName}
    {reservedNames : List Text} {a b : ManagedSkillName} (ha : a ∈ skills)
    (hb : b ∈ skills) (hne : a ≠ b) (hname : a.skillName = b.skillName) :
    collides skills reservedNames a = true := by
  have hgroup : [a, b] ⊆ skills.filter fun other =>
      other.skillName = a.skillName := by
    intro skill hskill
    rw [List.mem_filter]
    rcases List.mem_cons.mp hskill with rfl | hskill
    · exact ⟨ha, by simp⟩
    · rw [List.mem_singleton.mp hskill]
      exact ⟨hb, by simp [hname]⟩
  have hlength := (List.subperm_of_subset (by simpa using hne) hgroup).length_le
  rw [collides, Bool.or_eq_true, decide_eq_true_iff]
  exact Or.inl hlength

section Run

variable (skills : List ManagedSkillName) (reservedNames : List Text)

/-- The earlier aliases that are kept. -/
def stickyNames : List (ResourceId × Text) :=
  (admitClaims ManagedSkillName.resourceId (stickyClaim skills reservedNames)
    (orderedSkills skills)
    (canonicalNames skills reservedNames (orderedSkills skills), [])).2

/-- The names in use before the first alias is made. -/
def settledNames : List Text :=
  (stickyNames skills reservedNames).map Prod.snd ++
    canonicalNames skills reservedNames (orderedSkills skills)

def settledName (skill : ManagedSkillName) : Option Text :=
  if collides skills reservedNames skill then
    (stickyNames skills reservedNames).lookup skill.resourceId
  else
    some skill.skillName

theorem admitted_stickyNames :
    Admitted ManagedSkillName.resourceId (stickyClaim skills reservedNames)
      (orderedSkills skills)
      (canonicalNames skills reservedNames (orderedSkills skills))
      (stickyNames skills reservedNames) := by
  rcases @exists_admitted _ _ _ _ ManagedSkillName.resourceId
    (stickyClaim skills reservedNames) (orderedSkills skills)
    (canonicalNames skills reservedNames (orderedSkills skills)) [] with
    ⟨added, heq, hadmitted⟩
  rw [stickyNames, heq, List.append_nil]
  exact hadmitted

theorem allocateProjectionNames_eq :
    allocateProjectionNames skills reservedNames =
      (allocate (harnessName skills reservedNames
        (stickyNames skills reservedNames)) (orderedSkills skills)
        (settledNames skills reservedNames)).map
          fun named => named.map fun entry => assignment entry.1 entry.2 := by
  rcases @exists_admitted _ _ _ _ ManagedSkillName.resourceId
    (stickyClaim skills reservedNames) (orderedSkills skills)
    (canonicalNames skills reservedNames (orderedSkills skills)) [] with
    ⟨added, heq, _⟩
  unfold allocateProjectionNames settledNames stickyNames
  simp only [heq, List.append_nil]

theorem harnessName_picks :
    Picks (harnessName skills reservedNames
      (stickyNames skills reservedNames))
        (settledName skills reservedNames) := by
  constructor
  · intro skill used name hsettled
    unfold settledName at hsettled
    unfold harnessName
    cases hcollides : collides skills reservedNames skill with
    | false =>
        rw [hcollides] at hsettled
        exact hsettled
    | true =>
        rw [hcollides, if_pos rfl] at hsettled
        rw [hsettled]
        rfl
  · intro skill used name hsettled hpick
    unfold settledName at hsettled
    unfold harnessName at hpick
    cases hcollides : collides skills reservedNames skill with
    | false =>
        rw [hcollides] at hsettled
        cases hsettled
    | true =>
        rw [hcollides, if_pos rfl] at hsettled
        rw [hcollides, hsettled] at hpick
        exact (collisionAlias_eq_some hpick).1

variable {skills reservedNames}

theorem settledName_cases {skill : ManagedSkillName} {name : Text}
    (h : settledName skills reservedNames skill = some name) :
    (collides skills reservedNames skill = false ∧ name = skill.skillName) ∨
      (skill.resourceId, name) ∈ stickyNames skills reservedNames := by
  unfold settledName at h
  cases hcollides : collides skills reservedNames skill with
  | false =>
      rw [hcollides] at h
      cases h
      exact Or.inl ⟨rfl, rfl⟩
  | true =>
      rw [hcollides, if_pos rfl] at h
      exact Or.inr (mem_of_lookup_eq_some h)

theorem mem_settledNames {skill : ManagedSkillName} {name : Text}
    (hmem : skill ∈ orderedSkills skills)
    (h : settledName skills reservedNames skill = some name) :
    name ∈ settledNames skills reservedNames := by
  rw [settledNames, List.mem_append]
  rcases settledName_cases h with ⟨hkept, rfl⟩ | hsticky
  · right
    exact mem_canonicalNames.mpr (Or.inl ⟨skill, hmem, hkept, rfl⟩)
  · left
    exact List.mem_map.mpr ⟨_, hsticky, rfl⟩

theorem mem_orderedSkills {skill : ManagedSkillName} :
    skill ∈ orderedSkills skills <-> skill ∈ skills :=
  mem_sortByKey

theorem settledName_ne {a b : ManagedSkillName} (ha : a ∈ skills)
    (hb : b ∈ skills) (hne : a.resourceId ≠ b.resourceId) {name : Text}
    (hfirst : settledName skills reservedNames a = some name) :
    settledName skills reservedNames b ≠ some name := by
  intro hsecond
  have hadmitted := admitted_stickyNames skills reservedNames
  rcases settledName_cases hfirst with ⟨hkept, rfl⟩ | hsticky
  · rcases settledName_cases hsecond with ⟨_, hsame⟩ | hsticky'
    · have hother : a ≠ b := fun heq => hne (by rw [heq])
      have hcollides := @collides_of_same_name skills reservedNames a b ha hb
        hother hsame
      rw [hkept] at hcollides
      cases hcollides
    · apply hadmitted.free _ hsticky'
      exact mem_canonicalNames.mpr
        (Or.inl ⟨a, mem_orderedSkills.mpr ha, hkept, rfl⟩)
  · rcases settledName_cases hsecond with ⟨hkept, rfl⟩ | hsticky'
    · apply hadmitted.free _ hsticky
      exact mem_canonicalNames.mpr
        (Or.inl ⟨b, mem_orderedSkills.mpr hb, hkept, rfl⟩)
    · apply hne
      have hsame := List.inj_on_of_nodup_map hadmitted.distinct hsticky
        hsticky' rfl
      exact congrArg Prod.fst hsame

theorem orderedSkills_pairwise
    (hids : (skills.map ManagedSkillName.resourceId).Nodup) :
    (orderedSkills skills).Pairwise fun a b =>
      forall name, settledName skills reservedNames a = some name ->
        settledName skills reservedNames b ≠ some name := by
  have hordered : ((orderedSkills skills).map
      ManagedSkillName.resourceId).Nodup :=
    ((sortByKey_perm _ skills).map _).nodup_iff.mpr hids
  rw [List.Nodup, List.pairwise_map] at hordered
  apply hordered.imp_of_mem
  intro a b ha hb hne name hfirst
  exact settledName_ne (mem_orderedSkills.mp ha) (mem_orderedSkills.mp hb) hne
    hfirst

end Run

/-!
## The order of the input
-/

theorem collides_perm {skills skills' : List ManagedSkillName}
    (hperm : skills'.Perm skills) (reservedNames : List Text) :
    collides skills' reservedNames = collides skills reservedNames := by
  funext skill
  unfold collides
  rw [(hperm.filter _).length_eq]

theorem orderedSkills_perm {skills skills' : List ManagedSkillName}
    (hperm : skills'.Perm skills)
    (hids : (skills.map ManagedSkillName.resourceId).Nodup) :
    orderedSkills skills' = orderedSkills skills := by
  apply sortByKey_eq_of_perm _ hperm
  intro a b ha hb hkey
  apply List.inj_on_of_nodup_map hids (hperm.mem_iff.mp ha)
    (hperm.mem_iff.mp hb)
  have hbytes := Vector.toList_inj.mp hkey
  rcases a with ⟨⟨⟨bytes, version⟩⟩, owner, name, previous⟩
  cases hbytes
  rfl

theorem allocateProjectionNames_perm {skills skills' : List ManagedSkillName}
    (hperm : skills'.Perm skills)
    (hids : (skills.map ManagedSkillName.resourceId).Nodup)
    (reservedNames : List Text) :
    allocateProjectionNames skills' reservedNames =
      allocateProjectionNames skills reservedNames := by
  have hclaim : stickyClaim skills' reservedNames =
      stickyClaim skills reservedNames := by
    funext skill
    unfold stickyClaim
    rw [collides_perm hperm]
  have hcanonical : canonicalNames skills' reservedNames =
      canonicalNames skills reservedNames := by
    funext ordered
    unfold canonicalNames
    rw [collides_perm hperm]
  have hname : harnessName skills' reservedNames =
      harnessName skills reservedNames := by
    funext sticky skill used
    unfold harnessName
    rw [collides_perm hperm]
  unfold allocateProjectionNames
  rw [orderedSkills_perm hperm hids, hclaim, hcanonical, hname]

/-!
## What an allocation gives

A vector holds at most `isize::MAX` bytes, so it has fewer than `2 ^ 57` skills
of 88 bytes each, and a set has fewer than `2 ^ 60` names; the bounds below are
far above both.
-/

section Given

variable {skills : List ManagedSkillName} {reservedNames : List Text}

theorem exists_named (hskills : skills.length < 2 ^ 61)
    (hreserved : reservedNames.length < 2 ^ 63) :
    exists named, allocate (harnessName skills reservedNames
        (stickyNames skills reservedNames)) (orderedSkills skills)
        (settledNames skills reservedNames) = some named := by
  have hordered : (orderedSkills skills).length = skills.length :=
    (sortByKey_perm _ skills).length_eq
  have hsticky := (admitted_stickyNames skills reservedNames).length
  have hcanonical : (canonicalNames skills reservedNames
      (orderedSkills skills)).length ≤
        skills.length + reservedNames.length := by
    rw [canonicalNames, List.length_append, List.length_map, ← hordered]
    exact Nat.add_le_add_right (List.length_filter_le _ _) _
  have hpick : forall skill used, skill ∈ orderedSkills skills ->
      used.length < 2 ^ 64 - 2 ->
        exists name, harnessName skills reservedNames
          (stickyNames skills reservedNames) skill used = some name := by
    intro skill used _ hused
    unfold harnessName
    split
    · exact ⟨_, rfl⟩
    · split
      · exact ⟨_, rfl⟩
      · exact exists_collisionAlias skill hused
  apply exists_allocate hpick
  rw [settledNames, List.length_append, List.length_map]
  omega

variable {named : List (ManagedSkillName × Text)}
  (hnamed : allocate (harnessName skills reservedNames
    (stickyNames skills reservedNames)) (orderedSkills skills)
    (settledNames skills reservedNames) = some named)

include hnamed

theorem mem_skills_of_named {skill : ManagedSkillName} {name : Text}
    (hmem : (skill, name) ∈ named) : skill ∈ skills := by
  rw [← mem_orderedSkills, ← allocate_items hnamed]
  exact List.mem_map_of_mem (f := Prod.fst) hmem

/-- A skill is called by its own name where that is free, and by one of its
aliases where it is not. -/
theorem named_cases {skill : ManagedSkillName} {name : Text}
    (hmem : (skill, name) ∈ named)
    (hids : (skills.map ManagedSkillName.resourceId).Nodup) :
    name ∉ reservedNames ∧
      ((collides skills reservedNames skill = false ∧
        name = skill.skillName) ∨
        (collides skills reservedNames skill = true ∧
          validCollisionAlias skill name = true)) := by
  have hadmitted := admitted_stickyNames skills reservedNames
  have hskill := mem_skills_of_named hnamed hmem
  rcases allocate_picked hnamed hmem with ⟨later, hsubset, hpick⟩
  unfold harnessName at hpick
  cases hcollides : collides skills reservedNames skill with
  | false =>
      rw [hcollides] at hpick
      cases hpick
      constructor
      · intro hreserved
        rw [collides, Bool.or_eq_false_iff] at hcollides
        rw [List.contains_iff_mem.mpr hreserved] at hcollides
        cases hcollides.2
      · exact Or.inl ⟨rfl, rfl⟩
  | true =>
      rw [hcollides] at hpick
      simp only [Bool.not_true, Bool.false_eq_true, if_false] at hpick
      split at hpick
      · rename_i previous hlookup
        cases hpick
        have hsticky := mem_of_lookup_eq_some hlookup
        constructor
        · intro hreserved
          exact hadmitted.free _ hsticky
            (mem_canonicalNames.mpr (Or.inr hreserved))
        · right
          rcases hadmitted.claimed _ hsticky with
            ⟨claimant, hclaimant, hid, hclaim⟩
          have hsame : claimant = skill :=
            List.inj_on_of_nodup_map hids (mem_orderedSkills.mp hclaimant)
              hskill hid
          rw [hsame] at hclaim
          exact ⟨rfl, (stickyClaim_eq_some.mp hclaim).2.2⟩
      · rcases collisionAlias_eq_some hpick with ⟨hfree, hvalid⟩
        constructor
        · intro hreserved
          apply hfree
          apply hsubset
          rw [settledNames, List.mem_append]
          exact Or.inr (mem_canonicalNames.mpr (Or.inr hreserved))
        · exact Or.inr ⟨rfl, hvalid⟩

theorem named_nodup
    (hids : (skills.map ManagedSkillName.resourceId).Nodup) :
    (named.map Prod.snd).Nodup :=
  (harnessName_picks skills reservedNames).nodup
    (fun _ _ hmem hsettled => mem_settledNames hmem hsettled)
    (orderedSkills_pairwise hids) hnamed

end Given

/-- Every skill gets one name; the names are distinct, unreserved and valid, and
do not depend on the order of the skills. -/
theorem allocateProjectionNames_sound {skills : List ManagedSkillName}
    {reservedNames : List Text}
    (hids : (skills.map ManagedSkillName.resourceId).Nodup)
    (hnames : forall skill, skill ∈ skills ->
      validateSkillName skill.skillName = .ok ())
    (hskills : skills.length < 2 ^ 61)
    (hreserved : reservedNames.length < 2 ^ 63) :
    exists assignments,
      allocateProjectionNames skills reservedNames = some assignments ∧
      (assignments.map ProjectionAssignment.resourceId).Perm
        (skills.map ManagedSkillName.resourceId) ∧
      (assignments.map ProjectionAssignment.harnessName).Nodup ∧
      (forall assigned, assigned ∈ assignments ->
        assigned.harnessName ∉ reservedNames ∧
          validateSkillName assigned.harnessName = .ok ()) ∧
      forall skills', skills'.Perm skills ->
        allocateProjectionNames skills' reservedNames = some assignments := by
  rcases exists_named hskills hreserved with ⟨named, hnamed⟩
  have hresult : allocateProjectionNames skills reservedNames =
      some (named.map fun entry => assignment entry.1 entry.2) := by
    rw [allocateProjectionNames_eq, hnamed]
    rfl
  refine ⟨_, hresult, ?_, ?_, ?_, ?_⟩
  · rw [List.map_map]
    have hskill : named.map (fun entry => entry.1.resourceId) =
        (orderedSkills skills).map ManagedSkillName.resourceId := by
      rw [← allocate_items hnamed, List.map_map]
      rfl
    exact (List.Perm.of_eq hskill).trans ((sortByKey_perm _ skills).map _)
  · rw [List.map_map]
    exact named_nodup hnamed hids
  · intro assigned hassigned
    rcases List.mem_map.mp hassigned with ⟨⟨skill, name⟩, hmem, rfl⟩
    have hvalid := hnames skill (mem_skills_of_named hnamed hmem)
    rcases named_cases hnamed hmem hids with ⟨hfree, hcases⟩
    refine ⟨hfree, ?_⟩
    rcases hcases with ⟨_, hsame⟩ | ⟨_, halias⟩
    · show validateSkillName name = .ok ()
      rw [hsame]
      exact hvalid
    · exact validateSkillName_of_validCollisionAlias hvalid halias
  · intro skills' hperm
    rw [allocateProjectionNames_perm hperm hids]
    exact hresult

/-!
## A later run
-/

def harnessNameOf (assignments : List ProjectionAssignment)
    (resourceId : ResourceId) : Option Text :=
  (assignments.find? fun assigned => assigned.resourceId = resourceId).map
    ProjectionAssignment.harnessName

/-- The skill as the next run sees it. -/
def ManagedSkillName.carrying (assignments : List ProjectionAssignment)
    (skill : ManagedSkillName) : ManagedSkillName :=
  { skill with
    previousHarnessName := harnessNameOf assignments skill.resourceId }

/-- A run in which the surviving skills carry the names of an earlier run, and
new skills carry none. -/
structure LaterRun (assignments : List ProjectionAssignment)
    (skills : List ManagedSkillName) (reservedNames : List Text) : Prop where
  ids : (skills.map ManagedSkillName.resourceId).Nodup
  carried : forall skill, skill ∈ skills ->
    skill.previousHarnessName = harnessNameOf assignments skill.resourceId
  skillBound : skills.length < 2 ^ 61
  nameBound : reservedNames.length < 2 ^ 63

/-- The skill keeps its resource, its owner and its name. -/
structure Survives (skill later : ManagedSkillName) : Prop where
  resourceId : later.resourceId = skill.resourceId
  owner : later.owner = skill.owner
  skillName : later.skillName = skill.skillName

theorem Survives.validCollisionAlias {skill later : ManagedSkillName}
    (h : Survives skill later) (name : Text) :
    validCollisionAlias later name = validCollisionAlias skill name := by
  unfold Denju.validCollisionAlias collisionAliasAt
  rw [h.owner, h.skillName]

theorem harnessNameOf_map {named : List (ManagedSkillName × Text)}
    {resourceId : ResourceId} {name : Text}
    (h : harnessNameOf (named.map fun entry => assignment entry.1 entry.2)
      resourceId = some name) :
    exists skill, (skill, name) ∈ named ∧ skill.resourceId = resourceId := by
  unfold harnessNameOf at h
  rcases Option.map_eq_some_iff.mp h with ⟨assigned, hfound, rfl⟩
  have hid := List.find?_some hfound
  rcases List.mem_map.mp (List.mem_of_find?_eq_some hfound) with
    ⟨⟨skill, name⟩, hmem, rfl⟩
  exact ⟨skill, hmem, of_decide_eq_true hid⟩

theorem harnessNameOf_of_mem {named : List (ManagedSkillName × Text)}
    (hids : (named.map fun entry => entry.1.resourceId).Nodup)
    {skill : ManagedSkillName} {name : Text} (hmem : (skill, name) ∈ named) :
    harnessNameOf (named.map fun entry => assignment entry.1 entry.2)
      skill.resourceId = some name := by
  have hsome : (harnessNameOf (named.map fun entry =>
      assignment entry.1 entry.2) skill.resourceId).isSome = true := by
    unfold harnessNameOf
    rw [Option.isSome_map, List.find?_isSome]
    exact ⟨assignment skill name, List.mem_map.mpr ⟨_, hmem, rfl⟩,
      decide_eq_true rfl⟩
  rcases Option.isSome_iff_exists.mp hsome with ⟨found, hfound⟩
  rcases harnessNameOf_map hfound with ⟨other, hother, hid⟩
  have hsame := List.inj_on_of_nodup_map hids hother hmem hid
  cases hsame
  exact hfound

/-- A recognised alias that nobody else claims or needs is settled. -/
theorem settledName_of_claim {skills : List ManagedSkillName}
    {reservedNames : List Text}
    (hids : (skills.map ManagedSkillName.resourceId).Nodup)
    {skill : ManagedSkillName} {name : Text} (hmem : skill ∈ skills)
    (hcollides : collides skills reservedNames skill = true)
    (hprevious : skill.previousHarnessName = some name)
    (hvalid : validCollisionAlias skill name = true)
    (hfree : name ∉ canonicalNames skills reservedNames
      (orderedSkills skills))
    (hsole : forall other, other ∈ skills ->
      other.previousHarnessName = some name ->
        other.resourceId = skill.resourceId) :
    settledName skills reservedNames skill = some name := by
  have hadmitted := admitted_stickyNames skills reservedNames
  have hsticky : (skill.resourceId, name) ∈
      stickyNames skills reservedNames := by
    apply mem_admitClaims (mem_orderedSkills.mpr hmem)
      (stickyClaim_eq_some.mpr ⟨hcollides, hprevious, hvalid⟩) hfree
    intro other hother hclaim
    exact hsole other (mem_orderedSkills.mp hother)
      (stickyClaim_eq_some.mp hclaim).2.1
  unfold settledName
  rw [if_pos hcollides]
  cases hlookup : (stickyNames skills reservedNames).lookup
      skill.resourceId with
  | none =>
      have hnone := List.lookup_eq_none_iff.mp hlookup _ hsticky
      simp at hnone
  | some found =>
      rcases hadmitted.claimed _ (mem_of_lookup_eq_some hlookup) with
        ⟨claimant, hclaimant, hid, hclaim⟩
      have hsame : claimant = skill :=
        List.inj_on_of_nodup_map hids (mem_orderedSkills.mp hclaimant) hmem hid
      rw [hsame, stickyClaim_eq_some, hprevious] at hclaim
      exact hclaim.2.1.symm

theorem named_ids_nodup {skills : List ManagedSkillName}
    {reservedNames : List Text} {named : List (ManagedSkillName × Text)}
    (hids : (skills.map ManagedSkillName.resourceId).Nodup)
    (hnamed : allocate (harnessName skills reservedNames
      (stickyNames skills reservedNames)) (orderedSkills skills)
      (settledNames skills reservedNames) = some named) :
    (named.map fun entry => entry.1.resourceId).Nodup := by
  have hordered : named.map (fun entry => entry.1.resourceId) =
      (orderedSkills skills).map ManagedSkillName.resourceId := by
    rw [← allocate_items hnamed, List.map_map]
    rfl
  rw [hordered]
  exact ((sortByKey_perm _ skills).map _).nodup_iff.mpr hids

/-- A settled name is the one that the run gives. -/
theorem harnessNameOf_of_settled {skills : List ManagedSkillName}
    {reservedNames : List Text} {named : List (ManagedSkillName × Text)}
    (hids : (skills.map ManagedSkillName.resourceId).Nodup)
    (hnamed : allocate (harnessName skills reservedNames
      (stickyNames skills reservedNames)) (orderedSkills skills)
      (settledNames skills reservedNames) = some named)
    {skill : ManagedSkillName} {name : Text} (hmem : skill ∈ skills)
    (hsettled : settledName skills reservedNames skill = some name) :
    harnessNameOf (named.map fun entry => assignment entry.1 entry.2)
      skill.resourceId = some name := by
  have hnamedIds := named_ids_nodup hids hnamed
  have hordered := mem_orderedSkills.mpr hmem
  rw [← allocate_items hnamed] at hordered
  rcases List.mem_map.mp hordered with ⟨⟨found, given⟩, hentry, rfl⟩
  rcases allocate_picked hnamed hentry with ⟨later, _, hpick⟩
  rw [(harnessName_picks skills reservedNames).keep _ _ _ hsettled] at hpick
  cases hpick
  exact harnessNameOf_of_mem hnamedIds hentry

section Sticky

variable {skills : List ManagedSkillName} {reservedNames : List Text}
  {named : List (ManagedSkillName × Text)}
  (hids : (skills.map ManagedSkillName.resourceId).Nodup)
  (hnamed : allocate (harnessName skills reservedNames
    (stickyNames skills reservedNames)) (orderedSkills skills)
    (settledNames skills reservedNames) = some named)

include hids hnamed

/-- An alias that another run gave settles the name of the surviving skill. -/
theorem settledName_of_survives {skills' : List ManagedSkillName}
    {reservedNames' : List Text}
    (hids' : (skills'.map ManagedSkillName.resourceId).Nodup)
    (hcarried : forall skill, skill ∈ skills' ->
      skill.previousHarnessName = harnessNameOf
        (named.map fun entry => assignment entry.1 entry.2) skill.resourceId)
    {skill later : ManagedSkillName} {name : Text}
    (hmem : (skill, name) ∈ named) (hlater : later ∈ skills')
    (hsurvives : Survives skill later)
    (hcollides : collides skills reservedNames skill = true)
    (hcollides' : collides skills' reservedNames' later = true)
    (hfree : name ∉ reservedNames')
    (huncontested : forall other, other ∈ skills' ->
      collides skills' reservedNames' other = false ->
        other.skillName ≠ name) :
    settledName skills' reservedNames' later = some name := by
  have hnames := named_nodup hnamed hids
  have hskill := mem_skills_of_named hnamed hmem
  have hvalid : validCollisionAlias skill name = true := by
    rcases (named_cases hnamed hmem hids).2 with ⟨hnot, _⟩ | ⟨_, halias⟩
    · rw [hcollides] at hnot
      cases hnot
    · exact halias
  have hgiven : forall other, other ∈ skills' ->
      other.previousHarnessName = some name ->
        other.resourceId = skill.resourceId := by
    intro other hother hprevious
    rw [hcarried other hother] at hprevious
    rcases harnessNameOf_map hprevious with ⟨found, hfound, hid⟩
    have hsame := List.inj_on_of_nodup_map hnames hfound hmem rfl
    cases hsame
    exact hid.symm
  have hnamedIds := named_ids_nodup hids hnamed
  apply settledName_of_claim hids' hlater hcollides'
  · rw [hcarried later hlater, hsurvives.resourceId]
    exact harnessNameOf_of_mem hnamedIds hmem
  · rw [hsurvives.validCollisionAlias]
    exact hvalid
  · intro hcanonical
    rcases mem_canonicalNames.mp hcanonical with
      ⟨other, hother, hkept, hname⟩ | hreserved
    · exact huncontested other (mem_orderedSkills.mp hother) hkept hname
    · exact hfree hreserved
  · intro other hother hprevious
    rw [hsurvives.resourceId]
    exact hgiven other hother hprevious

end Sticky

theorem collides_carrying (assignments : List ProjectionAssignment)
    (skills : List ManagedSkillName) (reservedNames : List Text)
    (skill : ManagedSkillName) :
    collides (skills.map (ManagedSkillName.carrying assignments)) reservedNames
        (skill.carrying assignments) =
      collides skills reservedNames skill := by
  unfold collides
  rw [List.filter_map, List.length_map]
  rfl

theorem orderedSkills_carrying (assignments : List ProjectionAssignment)
    (skills : List ManagedSkillName) :
    orderedSkills (skills.map (ManagedSkillName.carrying assignments)) =
      (orderedSkills skills).map (ManagedSkillName.carrying assignments) :=
  sortByKey_map _ _ skills

/-- The same skills and reserved names, with the names of the run carried on,
get the same names again. -/
theorem allocateProjectionNames_again {skills : List ManagedSkillName}
    {reservedNames : List Text} {assignments : List ProjectionAssignment}
    (hids : (skills.map ManagedSkillName.resourceId).Nodup)
    (hrun : allocateProjectionNames skills reservedNames = some assignments) :
    allocateProjectionNames
        (skills.map (ManagedSkillName.carrying assignments)) reservedNames =
      some assignments := by
  rw [allocateProjectionNames_eq] at hrun
  rcases Option.map_eq_some_iff.mp hrun with ⟨named, hnamed, hassignments⟩
  have hids' : ((skills.map (ManagedSkillName.carrying assignments)).map
      ManagedSkillName.resourceId).Nodup := by
    rw [List.map_map]
    exact hids
  have hcarried : forall skill,
      skill ∈ skills.map (ManagedSkillName.carrying assignments) ->
        skill.previousHarnessName = harnessNameOf
          (named.map fun entry => assignment entry.1 entry.2)
          skill.resourceId := by
    intro skill hskill
    rcases List.mem_map.mp hskill with ⟨original, _, rfl⟩
    rw [hassignments]
    rfl
  have hsettled : forall skill name, (skill, name) ∈ named ->
      settledName (skills.map (ManagedSkillName.carrying assignments))
        reservedNames (skill.carrying assignments) = some name := by
    intro skill name hmem
    have hskill := mem_skills_of_named hnamed hmem
    rcases named_cases hnamed hmem hids with ⟨hfree, hcases⟩
    rcases hcases with ⟨hkept, rfl⟩ | ⟨hcollides, _⟩
    · unfold settledName
      rw [collides_carrying, hkept]
      rfl
    · apply settledName_of_survives hids hnamed hids' hcarried hmem
        (List.mem_map_of_mem hskill) ⟨rfl, rfl, rfl⟩ hcollides
        (by rw [collides_carrying]; exact hcollides) hfree
      intro other hother hkept hname
      rcases List.mem_map.mp hother with ⟨original, horiginal, rfl⟩
      rw [collides_carrying] at hkept
      have hsettled : settledName skills reservedNames original =
          some original.skillName := by
        unfold settledName
        rw [hkept]
        rfl
      have hgiven := harnessNameOf_of_settled hids hnamed horiginal hsettled
      rcases harnessNameOf_map hgiven with ⟨holder, hholder, hid⟩
      have hname' : original.skillName = name := hname
      rw [hname'] at hholder
      have hsame := List.inj_on_of_nodup_map (named_nodup hnamed hids) hholder
        hmem rfl
      cases hsame
      have hsameSkill := List.inj_on_of_nodup_map hids horiginal hskill hid.symm
      rw [hsameSkill, hcollides] at hkept
      cases hkept
  have hagain : allocate
      (harnessName (skills.map (ManagedSkillName.carrying assignments))
        reservedNames (stickyNames
          (skills.map (ManagedSkillName.carrying assignments)) reservedNames))
      (orderedSkills (skills.map (ManagedSkillName.carrying assignments)))
      (settledNames (skills.map (ManagedSkillName.carrying assignments))
        reservedNames) =
        some (named.map fun entry =>
          (entry.1.carrying assignments, entry.2)) := by
    rw [orderedSkills_carrying, ← allocate_items hnamed]
    have hitems : (named.map Prod.fst).map
        (ManagedSkillName.carrying assignments) =
          (named.map fun entry =>
            (entry.1.carrying assignments, entry.2)).map Prod.fst := by
      rw [List.map_map, List.map_map]
      rfl
    rw [hitems]
    apply allocate_of_settled
    intro entry hentry later
    rcases List.mem_map.mp hentry with ⟨⟨skill, name⟩, hmem, rfl⟩
    exact (harnessName_picks _ _).keep _ later name (hsettled skill name hmem)
  rw [allocateProjectionNames_eq, hagain, ← hassignments, Option.map_some,
    List.map_map]
  rfl

namespace Sample

def resourceUuid (n : UInt8) : Vector UInt8 16 :=
  #v[n, 0, 0, 0, 0, 0, 0x70, 0, 0, 0, 0, 0, 0, 0, 0, 0]

theorem resourceUuid_version (n : UInt8) : (resourceUuid n).get 6 >>> 4 = 7 := by
  show (0x70 : UInt8) >>> 4 = 7
  decide

def resourceId (n : UInt8) : ResourceId where
  uuid :=
    { bytes := resourceUuid n
      version := resourceUuid_version n }

def reviewSkill (n : UInt8) (owner : String) : ManagedSkillName where
  resourceId := resourceId n
  owner := owner.toList
  skillName := "review".toList
  previousHarnessName := none

def reviewSkills : List ManagedSkillName :=
  [reviewSkill 2 "alice", reviewSkill 3 "bob"]

def reviewNames : List ProjectionAssignment :=
  [ ⟨resourceId 2, "alice-review-2".toList, true⟩,
    ⟨resourceId 3, "bob-review".toList, true⟩ ]

/-- A new skill that sorts first, with the alias of `alice` free again. -/
def laterSkills : List ManagedSkillName :=
  [(reviewSkill 2 "alice").carrying reviewNames, reviewSkill 1 "alice"]

theorem reviewNames_allocated :
    allocateProjectionNames reviewSkills ["alice-review".toList] =
      some reviewNames := by
  decide +kernel

end Sample

theorem allocateProjectionNames_sound_review :
    exists assignments,
      allocateProjectionNames Sample.reviewSkills ["alice-review".toList] =
        some assignments ∧
      (assignments.map ProjectionAssignment.harnessName).Nodup := by
  rcases @allocateProjectionNames_sound Sample.reviewSkills
    ["alice-review".toList] (by decide +kernel) (by decide +kernel)
    (by decide +kernel) (by decide +kernel) with ⟨assignments, hrun, _, hnodup, _⟩
  exact ⟨assignments, hrun, hnodup⟩

end Denju
