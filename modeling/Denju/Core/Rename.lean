import Denju.Core.Skill

/-!
# Renaming a skill document

`rewriteSkillDocumentName` parses the frontmatter, sets the name and emits the
value again.  Renaming twice emits the value with the last name, whatever the
spelling of the original frontmatter was.
-/

namespace Denju

open Lib

/-!
## Setting a field twice
-/

namespace Yaml

theorem Value.isKey_eq_true {key : Text} {value : Value} :
    value.isKey key = true <-> value = .string key := by
  cases value with
  | string text => simp [isKey]
  | null => simp [isKey]
  | bool b => simp [isKey]
  | number n => simp [isKey]
  | sequence items => simp [isKey]
  | mapping entries => simp [isKey]
  | tagged tag inner => simp [isKey]

theorem Mapping.insert_insert (entries : Mapping) (key : Text)
    (a b : Value) :
    Mapping.insert (Mapping.insert entries key a) key b =
      Mapping.insert entries key b := by
  have hkey : (Value.string key).isKey key = true :=
    Value.isKey_eq_true.mpr rfl
  unfold Mapping.insert
  by_cases hany : entries.any fun entry => entry.1.isKey key
  · have hagain : (entries.map fun entry =>
        if entry.1.isKey key then (entry.1, a) else entry).any
          fun entry => entry.1.isKey key := by
      rcases List.any_eq_true.mp hany with ⟨entry, hmem, hentry⟩
      refine List.any_eq_true.mpr ⟨(entry.1, a), ?_, hentry⟩
      exact List.mem_map.mpr ⟨entry, hmem, by simp [hentry]⟩
    simp only [if_pos hany, if_pos hagain, List.map_map]
    apply List.map_congr_left
    intro entry _
    by_cases hentry : entry.1.isKey key = true
    · simp [hentry]
    · simp [hentry]
  · have hagain : (entries ++ [(Value.string key, a)]).any
        fun entry => entry.1.isKey key := by
      simp [hkey]
    have hnone : forall entry, entry ∈ entries ->
        entry.1.isKey key = false := by
      simpa using hany
    simp only [if_neg hany, if_pos hagain, List.map_append, List.map_cons,
      List.map_nil, hkey, if_true]
    congr 1
    refine (List.map_congr_left ?_).trans (List.map_id entries)
    intro entry hmem
    simp [hnone entry hmem]

namespace Value

theorem asMapping_withMapping {value : Value} {entries : Mapping}
    (h : value.asMapping = some entries) (entries' : Mapping) :
    (value.withMapping entries').asMapping = some entries' := by
  induction value using untagRef.induct with
  | case1 tag inner ih => exact ih h
  | case2 value hplain =>
      cases value with
      | tagged tag inner => exact absurd rfl (hplain tag inner)
      | mapping _ => rfl
      | null => cases h
      | bool _ => cases h
      | number _ => cases h
      | string _ => cases h
      | sequence _ => cases h

theorem withMapping_withMapping (value : Value) (a b : Mapping) :
    (value.withMapping a).withMapping b = value.withMapping b := by
  induction value using untagRef.induct with
  | case1 tag inner ih => simp only [withMapping, ih]
  | case2 value hplain =>
      cases value with
      | tagged tag inner => exact absurd rfl (hplain tag inner)
      | mapping _ => rfl
      | null => rfl
      | bool _ => rfl
      | number _ => rfl
      | string _ => rfl
      | sequence _ => rfl

theorem withMapping_self {value : Value} {entries : Mapping}
    (h : value.asMapping = some entries) :
    value.withMapping entries = value := by
  induction value using untagRef.induct with
  | case1 tag inner ih =>
      simp only [withMapping]
      rw [ih h]
  | case2 value hplain =>
      cases value with
      | tagged tag inner => exact absurd rfl (hplain tag inner)
      | mapping _ =>
          cases h
          rfl
      | null => cases h
      | bool _ => cases h
      | number _ => cases h
      | string _ => cases h
      | sequence _ => cases h

end Value
end Yaml

/-!
## Splitting what was emitted
-/

/-- Emitted frontmatter ends its last line and has no delimiter line. -/
def IsBlock (text : Text) : Prop :=
  (text = [] ∨ text.getLast? = some '\n') ∧
    forall line, line ∈ splitInclusive '\n' text -> isDelimiter line = false

theorem splitAtDelimiter_append {before : List Text} {closing : Text}
    (hbefore : forall line, line ∈ before -> isDelimiter line = false)
    (hclosing : isDelimiter closing = true) (rest : List Text) :
    splitAtDelimiter (before ++ closing :: rest) =
      some (before.flatten, rest.flatten) := by
  induction before with
  | nil => simp [splitAtDelimiter, hclosing]
  | cons line more ih =>
      have hline := hbefore line List.mem_cons_self
      have hmore := ih fun other hother =>
        hbefore other (List.mem_cons_of_mem line hother)
      simp [splitAtDelimiter, hline, hmore]

def delimiterLine : Text :=
  "---\n".toList

theorem splitInclusive_delimiterLine (rest : Text) :
    splitInclusive '\n' (delimiterLine ++ rest) =
      delimiterLine :: splitInclusive '\n' rest :=
  splitInclusive_append (Or.inr rfl) rest

theorem splitFrontmatter_block {frontmatter : Text} (h : IsBlock frontmatter)
    (body : Text) :
    splitFrontmatter (delimiterLine ++ frontmatter ++ delimiterLine ++ body) =
      .ok (frontmatter, body) := by
  have hdelimiter : isDelimiter delimiterLine = true := by decide
  have hlines : splitInclusive '\n'
      (delimiterLine ++ frontmatter ++ delimiterLine ++ body) =
        delimiterLine :: (splitInclusive '\n' frontmatter ++
          delimiterLine :: splitInclusive '\n' body) := by
    rw [List.append_assoc, List.append_assoc, splitInclusive_delimiterLine,
      splitInclusive_append h.1, splitInclusive_delimiterLine]
  unfold splitFrontmatter
  rw [hlines]
  simp only [hdelimiter, if_true]
  rw [splitAtDelimiter_append h.2 hdelimiter, splitInclusive_flatten,
    splitInclusive_flatten]

/-!
## Emitting and parsing again
-/

variable (ext : Externals)

/--
Parsing what was emitted gives the value back, and an emitted mapping is a block
of complete lines without a delimiter.
-/
def YamlRoundTrip : Prop :=
  forall value text, ext.yamlToString value = .ok text ->
    ext.yamlFromStr text = .ok value ∧
      (value.asMapping.isSome -> IsBlock text)

/-- The document with the given frontmatter and body. -/
def renderDocument (frontmatter body : Text) : Bytes :=
  utf8 (delimiterLine ++ frontmatter ++ delimiterLine ++ body)

variable {ext}

theorem parseFrontmatter_renderDocument (hyaml : YamlRoundTrip ext)
    {value : Yaml.Value} {text : Text}
    (hemit : ext.yamlToString value = .ok text)
    (hmapping : value.asMapping.isSome) (body : Text) :
    parseFrontmatter ext (renderDocument text body) = .ok (value, body) := by
  rcases hyaml value text hemit with ⟨hparse, hblock⟩
  unfold parseFrontmatter renderDocument
  rw [fromUtf8_utf8]
  simp only [okOr, bind, Except.bind, splitFrontmatter_block (hblock hmapping),
    hparse, Except.mapError, pure, Except.pure]

/-- The parts of a successful rename. -/
theorem rewriteSkillDocumentName_eq_ok {name projected : Text}
    {bytes output : Bytes}
    (h : rewriteSkillDocumentName ext name bytes projected = .ok output) :
    exists value mapping body text,
      parseFrontmatter ext bytes = .ok (value, body) ∧
        value.asMapping = some mapping ∧
          ext.yamlToString (value.withMapping
            (mapping.insert "name".toList (.string projected))) = .ok text ∧
            output = renderDocument text body ∧
              validateSkillName projected = .ok () ∧
                exists document,
                  parseSkillDocument ext projected output = .ok document := by
  rcases bind_eq_ok.mp h with ⟨document, hdocument, h⟩
  rcases bind_eq_ok.mp h with ⟨_, hname, h⟩
  rcases bind_eq_ok.mp h with ⟨⟨value, body⟩, hvalue, h⟩
  rcases bind_eq_ok.mp h with ⟨mapping, hmapping, h⟩
  rcases bind_eq_ok.mp h with ⟨text, htext, h⟩
  rcases bind_eq_ok.mp h with ⟨renamed, hrenamed, h⟩
  cases h
  rcases bind_eq_ok.mp hdocument with ⟨⟨value', body'⟩, hvalue', hdocument⟩
  rw [hvalue] at hvalue'
  cases hvalue'
  rcases bind_eq_ok.mp hdocument with ⟨_, _, hdocument⟩
  rcases bind_eq_ok.mp hdocument with ⟨_, _, hdocument⟩
  cases hdocument
  have houtput :
      utf8 ("---\n".toList ++ text ++ "---\n".toList) ++ utf8 body =
        renderDocument text body := by
    simp only [renderDocument, delimiterLine, utf8_append]
  rw [houtput] at hrenamed ⊢
  exact ⟨value, mapping, body, text, hvalue, okOr_eq_ok.mp hmapping,
    mapError_eq_ok.mp htext, rfl, hname, renamed, hrenamed⟩

/-- Renaming to the harness name and back emits the value with the first name. -/
theorem rewriteSkillDocumentName_back (hyaml : YamlRoundTrip ext)
    {name harness : Text} {bytes derived : Bytes}
    (h : rewriteSkillDocumentName ext name bytes harness = .ok derived) :
    exists value mapping body,
      parseFrontmatter ext bytes = .ok (value, body) ∧
        value.asMapping = some mapping ∧
          forall output,
            rewriteSkillDocumentName ext harness derived name = .ok output <->
              (exists text,
                ext.yamlToString (value.withMapping
                  (mapping.insert "name".toList (.string name))) = .ok text ∧
                  output = renderDocument text body) ∧
                validateSkillName name = .ok () ∧
                  exists document,
                    parseSkillDocument ext name output = .ok document := by
  rcases rewriteSkillDocumentName_eq_ok h with
    ⟨value, mapping, body, text, hvalue, hmapping, htext, hderived, hharness,
      document, hdocument⟩
  refine ⟨value, mapping, body, hvalue, hmapping, ?_⟩
  have hrenamedMapping := Yaml.Value.asMapping_withMapping hmapping
    (mapping.insert "name".toList (.string harness))
  have hparsed : parseFrontmatter ext derived = .ok
      (value.withMapping (mapping.insert "name".toList (.string harness)),
        body) := by
    rw [hderived]
    exact parseFrontmatter_renderDocument hyaml htext
      (by rw [hrenamedMapping]; rfl) body
  have hvalueBack :
      (value.withMapping (mapping.insert "name".toList
        (.string harness))).withMapping
          ((mapping.insert "name".toList (.string harness)).insert "name".toList
            (.string name)) =
        value.withMapping (mapping.insert "name".toList (.string name)) := by
    rw [Yaml.Value.withMapping_withMapping, Yaml.Mapping.insert_insert]
  intro output
  constructor
  · intro hback
    rcases rewriteSkillDocumentName_eq_ok hback with
      ⟨value', mapping', body', text', hvalue', hmapping', htext', houtput,
        hname, hfinal⟩
    rw [hparsed] at hvalue'
    cases hvalue'
    rw [hrenamedMapping] at hmapping'
    cases hmapping'
    rw [hvalueBack] at htext'
    exact ⟨⟨text', htext', houtput⟩, hname, hfinal⟩
  · rintro ⟨⟨text', htext', houtput⟩, hname, final, hfinal⟩
    have hbody : document.body = utf8 body := by
      rcases bind_eq_ok.mp hdocument with ⟨⟨value', body'⟩, hvalue', hrest⟩
      rw [hparsed] at hvalue'
      cases hvalue'
      rcases bind_eq_ok.mp hrest with ⟨_, _, hrest⟩
      rcases bind_eq_ok.mp hrest with ⟨_, _, hrest⟩
      cases hrest
      rfl
    have hrender :
        utf8 ("---\n".toList ++ text' ++ "---\n".toList) ++ document.body =
          output := by
      rw [houtput, hbody]
      simp only [renderDocument, delimiterLine, utf8_append]
    unfold rewriteSkillDocumentName
    refine bind_eq_ok.mpr ⟨document, hdocument, ?_⟩
    refine bind_eq_ok.mpr ⟨(), hname, ?_⟩
    refine bind_eq_ok.mpr ⟨_, hparsed, ?_⟩
    refine bind_eq_ok.mpr ⟨_, okOr_eq_ok.mpr hrenamedMapping, ?_⟩
    refine bind_eq_ok.mpr ⟨text', ?_, ?_⟩
    · rw [mapError_eq_ok, hvalueBack]
      exact htext'
    · dsimp only
      rw [hrender]
      exact bind_eq_ok.mpr ⟨final, hfinal, rfl⟩

end Denju
