import Denju.Lib.Text
import Mathlib.Data.List.Basic
import Mathlib.Data.String.Basic

/-!
# JSON values

The values that a serializer produces, with the encoders of optional values and
lists.  An absent optional value is `null`, or its field is left out.

The order in which a serializer emits the fields of an object is not part of
the value, and of several fields with one name the last one counts.  Two terms
are the same value when they agree after the fields are put in order.
-/

namespace Lib

inductive Json where
  | null
  | bool (value : Bool)
  | number (value : Nat)
  | string (value : Text)
  | array (values : List Json)
  | object (fields : List (String × Json))

namespace Json

variable {α : Type}

def ofOption (encode : α -> Json) : Option α -> Json
  | none => .null
  | some value => encode value

/-- The field of an optional value that is skipped when absent. -/
def optionalField (name : String) (encode : α -> Json) :
    Option α -> List (String × Json)
  | none => []
  | some value => [(name, encode value)]

def ofList (encode : α -> Json) (values : List α) : Json :=
  .array (values.map encode)

/-!
## Fields in order
-/

def names (fields : List (String × Json)) : List String :=
  fields.map Prod.fst

def insertField (name : String) (value : Json) :
    List (String × Json) -> List (String × Json)
  | [] => [(name, value)]
  | (other, old) :: fields =>
      if name < other then
        (name, value) :: (other, old) :: fields
      else
        (other, old) :: insertField name value fields

mutual

/-- The value with the fields of every object in order, each name once. -/
def normal : Json -> Json
  | .null => .null
  | .bool value => .bool value
  | .number value => .number value
  | .string value => .string value
  | .array values => .array (normalValues values)
  | .object fields => .object (normalFields fields)

def normalValues : List Json -> List Json
  | [] => []
  | value :: values => value.normal :: normalValues values

def normalFields : List (String × Json) -> List (String × Json)
  | [] => []
  | (name, value) :: fields =>
      if name ∈ names fields then
        normalFields fields
      else
        insertField name value.normal (normalFields fields)

end

def Same (a b : Json) : Prop :=
  a.normal = b.normal

def SameFields (a b : List (String × Json)) : Prop :=
  forall name, (normalFields a).lookup name = (normalFields b).lookup name

theorem Same.refl (a : Json) : a.Same a :=
  rfl

theorem lookup_cons_field {name : String} {field : String × Json}
    {fields : List (String × Json)} :
    (field :: fields).lookup name =
      if name = field.1 then some field.2 else fields.lookup name := by
  rw [List.lookup_cons]
  by_cases heq : name = field.1
  · simp [heq]
  · simp [heq, beq_false_of_ne heq]

theorem lookup_insertField {name other : String} {value : Json}
    {fields : List (String × Json)} (habsent : fields.lookup name = none) :
    (insertField name value fields).lookup other =
      if other = name then some value else fields.lookup other := by
  induction fields with
  | nil => rw [insertField, lookup_cons_field]
  | cons field fields ih =>
      rw [lookup_cons_field] at habsent
      have hne : name ≠ field.1 := by
        intro heq
        simp [heq] at habsent
      rw [if_neg hne] at habsent
      unfold insertField
      split
      · rw [lookup_cons_field]
      · rw [lookup_cons_field, lookup_cons_field, ih habsent]
        by_cases heq : other = name
        · simp [heq, hne]
        · rw [if_neg heq, if_neg heq]

theorem lookup_normalFields_of_absent {name : String}
    {fields : List (String × Json)} (habsent : name ∉ names fields) :
    (normalFields fields).lookup name = none := by
  induction fields generalizing name with
  | nil => rfl
  | cons field fields ih =>
      simp only [names, List.map_cons, List.mem_cons, not_or] at habsent
      unfold normalFields
      split
      · exact ih habsent.2
      · rename_i hfresh
        rw [lookup_insertField (ih hfresh), if_neg habsent.1, ih habsent.2]

theorem lookup_normalFields_cons {name other : String} {value : Json}
    {fields : List (String × Json)} (habsent : name ∉ names fields) :
    (normalFields ((name, value) :: fields)).lookup other =
      if other = name then some value.normal
      else (normalFields fields).lookup other := by
  rw [normalFields, if_neg habsent]
  exact lookup_insertField (lookup_normalFields_of_absent habsent)

/-!
## Equal values have equal fields
-/

theorem Same.fields {a b : List (String × Json)}
    (h : (object a).Same (object b)) : SameFields a b := by
  intro name
  unfold Same at h
  simp only [normal, object.injEq] at h
  rw [h]

@[simp] theorem sameFields_nil : SameFields [] [] :=
  fun _ => rfl

@[simp] theorem sameFields_cons {name : String} {x y : Json}
    {a b : List (String × Json)} (ha : name ∉ names a) (hb : name ∉ names b) :
    SameFields ((name, x) :: a) ((name, y) :: b) <->
      x.Same y ∧ SameFields a b := by
  constructor
  · intro h
    constructor
    · have hname := h name
      rw [lookup_normalFields_cons ha, lookup_normalFields_cons hb] at hname
      simpa [Same] using hname
    · intro other
      by_cases heq : other = name
      · rw [heq, lookup_normalFields_of_absent ha,
          lookup_normalFields_of_absent hb]
      · have hother := h other
        rw [lookup_normalFields_cons ha, lookup_normalFields_cons hb,
          if_neg heq, if_neg heq] at hother
        exact hother
  · intro h other
    rw [lookup_normalFields_cons ha, lookup_normalFields_cons hb]
    split
    · rw [h.1]
    · exact h.2 other

theorem not_sameFields_cons {name : String} {x : Json}
    {a b : List (String × Json)} (ha : name ∉ names a) (hb : name ∉ names b) :
    ¬ SameFields ((name, x) :: a) b := by
  intro h
  have hname := h name
  rw [lookup_normalFields_cons ha, lookup_normalFields_of_absent hb] at hname
  simp at hname

theorem SameFields.symm {a b : List (String × Json)} (h : SameFields a b) :
    SameFields b a :=
  fun name => (h name).symm

@[simp] theorem names_nil : names [] = [] :=
  rfl

@[simp] theorem names_cons {field : String × Json}
    {fields : List (String × Json)} :
    names (field :: fields) = field.1 :: names fields :=
  rfl

@[simp] theorem names_append {a b : List (String × Json)} :
    names (a ++ b) = names a ++ names b :=
  List.map_append

theorem mem_names_optionalField {name other : String} {encode : α -> Json}
    {value : Option α} (h : other ∈ names (optionalField name encode value)) :
    other = name := by
  cases value with
  | none => cases h
  | some _ => simpa [optionalField] using h

@[simp] theorem not_mem_names_optionalField {name other : String}
    {encode : α -> Json} {value : Option α} (hne : other ≠ name) :
    other ∉ names (optionalField name encode value) :=
  fun h => hne (mem_names_optionalField h)

/-- Encodings of values are the same value for equal values only. -/
def Separates (encode : α -> Json) : Prop :=
  forall a b, (encode a).Same (encode b) -> a = b

theorem Separates.iff {encode : α -> Json} (hencode : Separates encode)
    {a b : α} : (encode a).Same (encode b) <-> a = b := by
  constructor
  · exact hencode a b
  · rintro rfl
    exact Same.refl _

@[simp] theorem sameFields_optional_append {name : String} {encode : α -> Json}
    (hencode : Separates encode) {x y : Option α}
    {a b : List (String × Json)} (ha : name ∉ names a) (hb : name ∉ names b) :
    SameFields (optionalField name encode x ++ a)
        (optionalField name encode y ++ b) <->
      x = y ∧ SameFields a b := by
  cases x with
  | none =>
      cases y with
      | none => simp [optionalField]
      | some y =>
          simp only [optionalField, List.nil_append, List.cons_append,
            reduceCtorEq, false_and, iff_false]
          exact fun h => not_sameFields_cons hb ha h.symm
  | some x =>
      cases y with
      | none =>
          simp only [optionalField, List.nil_append, List.cons_append,
            reduceCtorEq, false_and, iff_false]
          exact not_sameFields_cons ha hb
      | some y =>
          simp [optionalField, sameFields_cons ha hb, hencode.iff]

@[simp] theorem sameFields_optional {name : String} {encode : α -> Json}
    (hencode : Separates encode) {x y : Option α} :
    SameFields (optionalField name encode x) (optionalField name encode y) <->
      x = y := by
  have h : SameFields (optionalField name encode x ++ [])
      (optionalField name encode y ++ []) <-> x = y ∧ SameFields [] [] :=
    sameFields_optional_append hencode (by simp) (by simp)
  simpa using h

/-!
## Scalars, optional values and lists
-/

@[simp] theorem same_bool {a b : Bool} :
    (bool a).Same (bool b) <-> a = b := by
  simp [Same, normal]

@[simp] theorem same_number {a b : Nat} :
    (number a).Same (number b) <-> a = b := by
  simp [Same, normal]

@[simp] theorem same_string {a b : Text} :
    (string a).Same (string b) <-> a = b := by
  simp [Same, normal]

@[simp] theorem separates_string : Separates string :=
  fun _ _ => same_string.mp

@[simp] theorem separates_number : Separates number :=
  fun _ _ => same_number.mp

@[simp] theorem same_ofOption {encode : α -> Json} (hencode : Separates encode)
    (hnull : forall value, ¬ (encode value).Same .null) {a b : Option α} :
    (ofOption encode a).Same (ofOption encode b) <-> a = b := by
  cases a with
  | none =>
      cases b with
      | none => simp [Same.refl]
      | some y =>
          have hy := hnull y
          simp only [reduceCtorEq, iff_false]
          exact fun h => hy h.symm
  | some x =>
      cases b with
      | none =>
          simp only [reduceCtorEq, iff_false]
          exact hnull x
      | some y => simpa [Json.ofOption] using hencode.iff

@[simp] theorem same_ofList {encode : α -> Json} (hencode : Separates encode)
    {a b : List α} : (ofList encode a).Same (ofList encode b) <-> a = b := by
  have hvalues : forall xs ys : List α,
      normalValues (xs.map encode) = normalValues (ys.map encode) ->
      xs = ys := by
    intro xs
    induction xs with
    | nil =>
        intro ys h
        cases ys with
        | nil => rfl
        | cons y ys => simp [normalValues] at h
    | cons x xs ih =>
        intro ys h
        cases ys with
        | nil => simp [normalValues] at h
        | cons y ys =>
            simp only [List.map_cons, normalValues, List.cons.injEq] at h
            rw [hencode x y h.1, ih ys h.2]
  constructor
  · intro h
    unfold Same at h
    simp only [Json.ofList, normal, array.injEq] at h
    exact hvalues a b h
  · rintro rfl
    exact Same.refl _

@[simp] theorem not_same_null_string {text : Text} :
    ¬ (string text).Same .null := by
  simp [Same, normal]

@[simp] theorem not_same_null_number {n : Nat} :
    ¬ (number n).Same .null := by
  simp [Same, normal]

@[simp] theorem not_same_null_object {fields : List (String × Json)} :
    ¬ (object fields).Same .null := by
  simp [Same, normal]

end Json

/-- A JSON value with the fields of its objects in order, each name once. -/
structure JsonValue where
  json : Json
  ordered : json.normal = json

theorem JsonValue.separates : Json.Separates JsonValue.json := by
  intro a b h
  have hjson : a.json = b.json := by
    rw [← a.ordered, ← b.ordered]
    exact h
  cases a
  cases b
  cases hjson
  rfl

@[simp] theorem JsonValue.same_json {a b : JsonValue} :
    a.json.Same b.json <-> a = b :=
  JsonValue.separates.iff

end Lib
