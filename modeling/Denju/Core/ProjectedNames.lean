import Denju.Core.Rename
import Denju.Core.ContentAddressing

/-!
# Documents under a projected name

A document that is rewritten to another valid name keeps its body and all fields
but the name, and rewriting it back gives a document that parses like the first
one.
-/

namespace Denju

open Lib

namespace Yaml

theorem Mapping.get_insert_self (entries : Mapping) (key : Text)
    (value : Value) : (entries.insert key value).get key = some value := by
  have hkey : (Value.string key).isKey key = true :=
    Value.isKey_eq_true.mpr rfl
  unfold Mapping.insert Mapping.get
  split
  · rename_i hany
    induction entries with
    | nil => cases hany
    | cons entry rest ih =>
        by_cases hentry : entry.1.isKey key = true
        · simp [hentry]
        · have hrest := ih (by simpa [hentry] using hany)
          simpa [hentry] using hrest
  · rename_i hany
    have hnone : entries.find? (fun entry => entry.1.isKey key) = none := by
      apply List.find?_eq_none.mpr
      intro entry hentry hfound
      apply hany
      exact List.any_eq_true.mpr ⟨entry, hentry, hfound⟩
    rw [List.find?_append, hnone]
    simp [hkey]

theorem Mapping.get_insert_of_ne (entries : Mapping) {key other : Text}
    (hne : key ≠ other) (value : Value) :
    (entries.insert key value).get other = entries.get other := by
  have hkey : forall found : Value, found.isKey key = true ->
      found.isKey other = false := by
    intro found hfound
    rw [Value.isKey_eq_true] at hfound
    rw [hfound, Bool.eq_false_iff]
    intro hother
    rw [Value.isKey_eq_true] at hother
    injection hother with hsame
    exact hne hsame
  unfold Mapping.insert Mapping.get
  split
  · rename_i hany
    clear hany
    induction entries with
    | nil => rfl
    | cons entry rest ih =>
        rw [List.map_cons, List.find?_cons, List.find?_cons]
        by_cases hentry : entry.1.isKey key = true
        · rw [if_pos hentry, hkey entry.1 hentry]
          exact ih
        · rw [if_neg hentry]
          cases entry.1.isKey other with
          | true => rfl
          | false => exact ih
  · have hlast := hkey (.string key) (Value.isKey_eq_true.mpr rfl)
    rw [List.find?_append]
    simp [hlast]

end Yaml

/-!
## Fields under another name
-/

theorem requiredString_insert_of_ne (mapping : Yaml.Mapping) {key : Text}
    {field : String} (hne : key ≠ field.toList) (value : Yaml.Value) :
    requiredString (mapping.insert key value) field =
      requiredString mapping field := by
  unfold requiredString
  rw [Yaml.Mapping.get_insert_of_ne mapping hne]

theorem optionalString_insert_of_ne (mapping : Yaml.Mapping) {key : Text}
    {field : String} (hne : key ≠ field.toList) (value : Yaml.Value) :
    optionalString (mapping.insert key value) field =
      optionalString mapping field := by
  unfold optionalString
  rw [Yaml.Mapping.get_insert_of_ne mapping hne]

theorem metadataMap_insert_name (mapping : Yaml.Mapping)
    (value : Yaml.Value) :
    metadataMap (mapping.insert "name".toList value) = metadataMap mapping := by
  unfold metadataMap
  rw [Yaml.Mapping.get_insert_of_ne mapping (by decide)]

theorem parseFields_name {name : Text} {mapping : Yaml.Mapping}
    {frontmatter : SkillFrontmatter}
    (h : parseFields name mapping = .ok frontmatter) :
    frontmatter.name = name := by
  rcases bind_eq_ok.mp h with ⟨found, _, h⟩
  rcases bind_eq_ok.mp h with ⟨_, _, h⟩
  rcases bind_eq_ok.mp h with ⟨_, hname, h⟩
  rcases bind_eq_ok.mp h with ⟨_, _, h⟩
  rcases bind_eq_ok.mp h with ⟨_, _, h⟩
  rcases bind_eq_ok.mp h with ⟨_, _, h⟩
  rcases bind_eq_ok.mp h with ⟨_, _, h⟩
  rcases bind_eq_ok.mp h with ⟨_, _, h⟩
  rcases bind_eq_ok.mp h with ⟨_, _, h⟩
  rcases bind_eq_ok.mp h with ⟨_, _, h⟩
  cases h
  exact beq_iff_eq.mp (ensure_eq_ok.mp hname)

/-- Under another valid name the fields pass as before. -/
theorem parseFields_insert_name {name projected : Text}
    {mapping : Yaml.Mapping} {frontmatter : SkillFrontmatter}
    (h : parseFields name mapping = .ok frontmatter)
    (hprojected : validateSkillName projected = .ok ()) :
    parseFields projected
        (mapping.insert "name".toList (.string projected)) =
      .ok { frontmatter with name := projected } := by
  rcases bind_eq_ok.mp h with ⟨_, _, h⟩
  rcases bind_eq_ok.mp h with ⟨_, _, h⟩
  rcases bind_eq_ok.mp h with ⟨_, _, h⟩
  rcases bind_eq_ok.mp h with ⟨description, hdescription, h⟩
  rcases bind_eq_ok.mp h with ⟨_, hlength, h⟩
  rcases bind_eq_ok.mp h with ⟨license, hlicense, h⟩
  rcases bind_eq_ok.mp h with ⟨compatibility, hcompatibility, h⟩
  rcases bind_eq_ok.mp h with ⟨_, hbounded, h⟩
  rcases bind_eq_ok.mp h with ⟨allowedTools, hallowedTools, h⟩
  rcases bind_eq_ok.mp h with ⟨metadata, hmetadata, h⟩
  cases h
  have hname : requiredString
      (mapping.insert "name".toList (.string projected)) "name" =
        .ok projected := by
    unfold requiredString
    rw [Yaml.Mapping.get_insert_self]
    rfl
  unfold parseFields
  refine bind_eq_ok.mpr ⟨projected, hname, ?_⟩
  refine bind_eq_ok.mpr ⟨(), hprojected, ?_⟩
  refine bind_eq_ok.mpr ⟨(), ensure_eq_ok.mpr (beq_self_eq_true _), ?_⟩
  refine bind_eq_ok.mpr ⟨description, ?_, ?_⟩
  · rw [requiredString_insert_of_ne mapping (by decide)]
    exact hdescription
  refine bind_eq_ok.mpr ⟨(), hlength, ?_⟩
  refine bind_eq_ok.mpr ⟨license, ?_, ?_⟩
  · rw [optionalString_insert_of_ne mapping (by decide)]
    exact hlicense
  refine bind_eq_ok.mpr ⟨compatibility, ?_, ?_⟩
  · rw [optionalString_insert_of_ne mapping (by decide)]
    exact hcompatibility
  refine bind_eq_ok.mpr ⟨(), hbounded, ?_⟩
  refine bind_eq_ok.mpr ⟨allowedTools, ?_, ?_⟩
  · rw [optionalString_insert_of_ne mapping (by decide)]
    exact hallowedTools
  refine bind_eq_ok.mpr ⟨metadata, ?_, rfl⟩
  rw [metadataMap_insert_name]
  exact hmetadata

/-!
## Whole documents
-/

variable (ext : Externals)

/-- A mapping that was parsed can be emitted with another valid name. -/
def YamlEmitsNames : Prop :=
  forall source value mapping name, ext.yamlFromStr source = .ok value ->
    value.asMapping = some mapping -> validateSkillName name = .ok () ->
      exists text, ext.yamlToString (value.withMapping
        (mapping.insert "name".toList (.string name))) = .ok text

variable {ext}

/-- The parts of a document that parses. -/
theorem parseSkillDocument_eq_ok {name : Text} {bytes : Bytes}
    {document : SkillDocument} :
    parseSkillDocument ext name bytes = .ok document <->
      exists value body mapping frontmatter,
        parseFrontmatter ext bytes = .ok (value, body) ∧
          value.asMapping = some mapping ∧
            parseFields name mapping = .ok frontmatter ∧
              document = ⟨frontmatter, utf8 body⟩ := by
  constructor
  · intro h
    rcases bind_eq_ok.mp h with ⟨⟨value, body⟩, hvalue, h⟩
    rcases bind_eq_ok.mp h with ⟨mapping, hmapping, h⟩
    rcases bind_eq_ok.mp h with ⟨frontmatter, hfrontmatter, h⟩
    cases h
    exact ⟨value, body, mapping, frontmatter, hvalue, okOr_eq_ok.mp hmapping,
      hfrontmatter, rfl⟩
  · intro h
    rcases h with ⟨value, body, mapping, frontmatter, hvalue, hmapping,
      hfrontmatter, rfl⟩
    refine bind_eq_ok.mpr ⟨_, hvalue, ?_⟩
    refine bind_eq_ok.mpr ⟨mapping, okOr_eq_ok.mpr hmapping, ?_⟩
    exact bind_eq_ok.mpr ⟨frontmatter, hfrontmatter, rfl⟩

/-- What a rewritten document parses to. -/
theorem rewriteSkillDocumentName_ok (hyaml : YamlRoundTrip ext)
    {name projected : Text} {bytes : Bytes} {value : Yaml.Value} {body : Text}
    {mapping : Yaml.Mapping} {frontmatter : SkillFrontmatter} {text : Text}
    (hvalue : parseFrontmatter ext bytes = .ok (value, body))
    (hmapping : value.asMapping = some mapping)
    (hfrontmatter : parseFields name mapping = .ok frontmatter)
    (hprojected : validateSkillName projected = .ok ())
    (htext : ext.yamlToString (value.withMapping
      (mapping.insert "name".toList (.string projected))) = .ok text) :
    rewriteSkillDocumentName ext name bytes projected =
        .ok (renderDocument text body) ∧
      parseFrontmatter ext (renderDocument text body) =
        .ok (value.withMapping
          (mapping.insert "name".toList (.string projected)), body) ∧
      parseSkillDocument ext projected (renderDocument text body) =
        .ok ⟨{ frontmatter with name := projected }, utf8 body⟩ := by
  have hrenamed := Yaml.Value.asMapping_withMapping hmapping
    (mapping.insert "name".toList (.string projected))
  have hparsed := parseFrontmatter_renderDocument hyaml htext
    (by rw [hrenamed]; rfl) body
  have hdocument := parseSkillDocument_eq_ok.mpr
    ⟨_, _, _, _, hparsed, hrenamed,
      parseFields_insert_name hfrontmatter hprojected, rfl⟩
  have hrender :
      utf8 ("---\n".toList ++ text ++ "---\n".toList) ++ utf8 body =
        renderDocument text body := by
    simp only [renderDocument, delimiterLine, utf8_append]
  refine ⟨?_, hparsed, hdocument⟩
  unfold rewriteSkillDocumentName
  refine bind_eq_ok.mpr ⟨⟨frontmatter, utf8 body⟩, ?_, ?_⟩
  · exact parseSkillDocument_eq_ok.mpr
      ⟨value, body, mapping, frontmatter, hvalue, hmapping, hfrontmatter, rfl⟩
  refine bind_eq_ok.mpr ⟨(), hprojected, ?_⟩
  refine bind_eq_ok.mpr ⟨_, hvalue, ?_⟩
  refine bind_eq_ok.mpr ⟨mapping, okOr_eq_ok.mpr hmapping, ?_⟩
  refine bind_eq_ok.mpr ⟨text, mapError_eq_ok.mpr htext, ?_⟩
  dsimp only
  rw [hrender]
  exact bind_eq_ok.mpr ⟨_, hdocument, rfl⟩

theorem exists_source {bytes : Bytes} {value : Yaml.Value} {body : Text}
    (h : parseFrontmatter ext bytes = .ok (value, body)) :
    exists source, ext.yamlFromStr source = .ok value := by
  rcases bind_eq_ok.mp h with ⟨_, _, h⟩
  rcases bind_eq_ok.mp h with ⟨⟨source, _⟩, _, h⟩
  rcases bind_eq_ok.mp h with ⟨found, hfound, h⟩
  cases h
  exact ⟨source, mapError_eq_ok.mp hfound⟩

/-- A document that parses under its canonical name is rewritten to every valid
name, with the body and the other fields as they were, and back to a document
that parses to the same. -/
theorem rewriteSkillDocumentName_preserves (hyaml : YamlRoundTrip ext)
    (hemits : YamlEmitsNames ext) {name projected : Text} {bytes : Bytes}
    {document : SkillDocument}
    (hdocument : parseSkillDocument ext name bytes = .ok document)
    (hprojected : validateSkillName projected = .ok ()) :
    exists output,
      rewriteSkillDocumentName ext name bytes projected = .ok output ∧
        (exists renamed,
          parseSkillDocument ext projected output = .ok renamed ∧
            renamed.body = document.body ∧
              renamed.frontmatter =
                { document.frontmatter with name := projected }) ∧
        exists back,
          rewriteSkillDocumentName ext projected output name = .ok back ∧
            parseSkillDocument ext name back = .ok document := by
  rcases parseSkillDocument_eq_ok.mp hdocument with
    ⟨value, body, mapping, frontmatter, hvalue, hmapping, hfrontmatter, rfl⟩
  rcases exists_source hvalue with ⟨source, hsource⟩
  rcases hemits source value mapping projected hsource hmapping hprojected with
    ⟨text, htext⟩
  rcases rewriteSkillDocumentName_ok hyaml hvalue hmapping hfrontmatter
    hprojected htext with ⟨houtput, hparsed, hrenamed⟩
  refine ⟨_, houtput, ⟨_, hrenamed, rfl, rfl⟩, ?_⟩
  have hname : validateSkillName name = .ok () := by
    rcases bind_eq_ok.mp hfrontmatter with ⟨found, _, hrest⟩
    rcases bind_eq_ok.mp hrest with ⟨_, hvalid, hrest⟩
    rcases bind_eq_ok.mp hrest with ⟨_, hsame, _⟩
    rw [← beq_iff_eq.mp (ensure_eq_ok.mp hsame)]
    exact hvalid
  have hmapping' := Yaml.Value.asMapping_withMapping hmapping
    (mapping.insert "name".toList (.string projected))
  rcases hemits text _ _ name (hyaml _ _ htext).1 hmapping' hname with
    ⟨text', htext'⟩
  rcases rewriteSkillDocumentName_ok hyaml hparsed hmapping'
    (parseFields_insert_name hfrontmatter hprojected) hname htext' with
    ⟨hback, _, hsame⟩
  refine ⟨_, hback, ?_⟩
  rw [hsame]
  have hdeclared := parseFields_name hfrontmatter
  cases frontmatter with
  | mk declared description license compatibility metadata allowedTools =>
      cases hdeclared
      rfl

/-!
## Frontmatter with a name and a description
-/

namespace Sample

def nameLine (name : Text) : Text :=
  'n' :: 'a' :: 'm' :: 'e' :: ':' :: ' ' :: (name ++ ['\n'])

def descriptionLine : Text :=
  "description: d\n".toList

def namedFrontmatter (name : Text) : Text :=
  nameLine name ++ descriptionLine

def namedValue (name : Text) : Yaml.Value :=
  .mapping
    [(.string "name".toList, .string name),
      (.string "description".toList, .string ['d'])]

/-- The name in such a frontmatter. -/
def nameIn (text : Text) : Text :=
  (text.drop 6).take (text.length - 22)

def nameOf : Yaml.Value -> Option Text
  | .mapping [(.string first, .string name), (.string second, .string text)] =>
      if first = "name".toList ∧ second = "description".toList ∧
          text = ['d'] ∧ name.all isNameCharacter then
        some name
      else
        none
  | _ => none

def parseNamed (text : Text) : Except Text Yaml.Value :=
  if text = namedFrontmatter (nameIn text) ∧
      (nameIn text).all isNameCharacter then
    .ok (namedValue (nameIn text))
  else
    .error []

def emitNamed (value : Yaml.Value) : Except Text Text :=
  okOr ((nameOf value).map namedFrontmatter) []

/-- The YAML of such frontmatter, and no other one. -/
def namingExternals : Externals :=
  { Sample.externals with yamlFromStr := parseNamed, yamlToString := emitNamed }

theorem nameOf_eq_some {value : Yaml.Value} {name : Text}
    (h : nameOf value = some name) :
    value = namedValue name ∧ name.all isNameCharacter = true := by
  unfold nameOf at h
  split at h
  · split at h
    · rename_i hfields
      cases h
      rcases hfields with ⟨rfl, rfl, rfl, hname⟩
      exact ⟨rfl, hname⟩
    · cases h
  · cases h

theorem nameOf_namedValue {name : Text}
    (h : name.all isNameCharacter = true) :
    nameOf (namedValue name) = some name := by
  unfold nameOf namedValue
  dsimp only
  rw [if_pos ⟨rfl, rfl, rfl, h⟩]

theorem nameIn_namedFrontmatter (name : Text) :
    nameIn (namedFrontmatter name) = name := by
  have hlength : (namedFrontmatter name).length - 22 = name.length := by
    unfold namedFrontmatter nameLine descriptionLine
    simp only [List.length_append, List.length_cons, List.length_nil]
    have hline : "description: d\n".toList.length = 15 := by decide
    omega
  unfold nameIn
  rw [hlength]
  show ((name ++ ['\n']) ++ descriptionLine).take name.length = name
  rw [List.append_assoc]
  exact List.take_left

/-- A line that starts with another character is no delimiter. -/
theorem isDelimiter_cons {c : Char} (hc : c ≠ '-') (rest : Text) :
    isDelimiter (c :: rest) = false := by
  unfold isDelimiter trimEndMatches
  rw [beq_eq_false_iff_ne]
  intro hsame
  have hprefix := List.rdropWhile_prefix isLineEnd (l := c :: rest)
  rw [hsame] at hprefix
  rcases hprefix with ⟨behind, hbehind⟩
  injection hbehind with hfirst
  exact hc hfirst.symm

theorem isBlock_namedFrontmatter {name : Text}
    (h : name.all isNameCharacter = true) :
    IsBlock (namedFrontmatter name) := by
  constructor
  · right
    unfold namedFrontmatter
    rw [List.getLast?_append_of_ne_nil _ (by decide)]
    rfl
  · have hinner : '\n' ∉ name := by
      intro hmem
      have hchar := List.all_eq_true.mp h '\n' hmem
      exact absurd hchar (by decide)
    have hpiece : Piece '\n' (nameLine name) := by
      constructor
      · exact List.cons_ne_nil _ _
      · unfold nameLine
        rw [← List.cons_append, ← List.cons_append, ← List.cons_append,
          ← List.cons_append, ← List.cons_append, ← List.cons_append,
          List.dropLast_concat]
        simp [hinner]
    intro line hline
    unfold namedFrontmatter at hline
    have hends : (nameLine name).getLast? = some '\n' := by
      unfold nameLine
      rw [← List.cons_append, ← List.cons_append, ← List.cons_append,
        ← List.cons_append, ← List.cons_append, ← List.cons_append,
        List.getLast?_concat]
    rw [splitInclusive_append (.inr hends), splitInclusive_piece hpiece] at hline
    cases List.mem_append.mp hline with
    | inl hfirst =>
        rw [List.mem_singleton.mp hfirst]
        exact isDelimiter_cons (by decide) _
    | inr hsecond =>
        have hlast : splitInclusive '\n' descriptionLine =
            [descriptionLine] := by decide
        rw [hlast, List.mem_singleton] at hsecond
        rw [hsecond]
        exact isDelimiter_cons (by decide) _

theorem naming_roundTrip : YamlRoundTrip namingExternals := by
  intro value text hemit
  have hnamed := okOr_eq_ok.mp (show emitNamed value = .ok text from hemit)
  rcases Option.map_eq_some_iff.mp hnamed with ⟨name, hname, rfl⟩
  rcases nameOf_eq_some hname with ⟨rfl, hall⟩
  constructor
  · show parseNamed (namedFrontmatter name) = _
    unfold parseNamed
    rw [nameIn_namedFrontmatter, if_pos ⟨rfl, hall⟩]
  · intro _
    exact isBlock_namedFrontmatter hall

theorem naming_emitsNames : YamlEmitsNames namingExternals := by
  intro source value mapping name hparse hmapping hname
  have hall : name.all isNameCharacter = true := by
    unfold validateSkillName at hname
    split at hname
    · cases hname
    · split at hname
      · cases hname
      · rename_i hvalid
        by_contra hnot
        exact hvalid (.inr (.inr (.inr hnot)))
  change parseNamed source = .ok value at hparse
  unfold parseNamed at hparse
  split at hparse
  · cases hparse
    cases hmapping
    refine ⟨namedFrontmatter name, ?_⟩
    show emitNamed (namedValue name) = _
    unfold emitNamed
    rw [nameOf_namedValue hall]
    rfl
  · cases hparse

def document (name : Text) : SkillDocument where
  frontmatter :=
    { name, description := ['d'], license := none, compatibility := none
      metadata := [], allowedTools := none }
  body := utf8 ['x', '\n']

end Sample

/-- The skill `a` under the name `b`. -/
theorem rewriteSkillDocumentName_preserves_projected :
    exists output,
      rewriteSkillDocumentName Sample.namingExternals ['a']
          (renderDocument (Sample.namedFrontmatter ['a']) ['x', '\n'])
          ['b'] = .ok output ∧
        (exists renamed,
          parseSkillDocument Sample.namingExternals ['b'] output =
              .ok renamed ∧
            renamed.body = (Sample.document ['a']).body ∧
              renamed.frontmatter = (Sample.document ['b']).frontmatter) ∧
        exists back,
          rewriteSkillDocumentName Sample.namingExternals ['b'] output ['a'] =
              .ok back ∧
            parseSkillDocument Sample.namingExternals ['a'] back =
              .ok (Sample.document ['a']) := by
  have hdocument : parseSkillDocument Sample.namingExternals ['a']
      (renderDocument (Sample.namedFrontmatter ['a']) ['x', '\n']) =
        .ok (Sample.document ['a']) := by
    rfl
  exact rewriteSkillDocumentName_preserves Sample.naming_roundTrip
    Sample.naming_emitsNames hdocument (by rfl)

end Denju
