import Denju.Local.ProjectionNames

/-!
# Canonical invocation names

A skill keeps its canonical name where nothing else claims it.  A skill whose
name is claimed is called differently, unless the alias that is made of its
owner and its name is the name itself.
-/

namespace Denju

open Lib

/-- Another skill has the name. -/
def SharesName (skills : List ManagedSkillName) (skill : ManagedSkillName) :
    Prop :=
  exists other, other ∈ skills ∧ other.resourceId ≠ skill.resourceId ∧
    other.skillName = skill.skillName

/-- A skill has its canonical name exactly where nothing else claims it, and a
claimed name is not that of the skill. -/
def NamesCanonically (skills : List ManagedSkillName)
    (reservedNames : List Text) (assignments : List ProjectionAssignment) :
    Prop :=
  forall skill, skill ∈ skills -> forall assigned, assigned ∈ assignments ->
    assigned.resourceId = skill.resourceId ->
      ((assigned.harnessName = skill.skillName ∧ assigned.derived = false) <->
        ¬SharesName skills skill ∧ skill.skillName ∉ reservedNames) ∧
      (SharesName skills skill ∨ skill.skillName ∈ reservedNames ->
        assigned.harnessName ≠ skill.skillName ∧ assigned.derived = true)

/-- What the registry knows of a skill's name. -/
def ManagedSkillName.identity (skill : ManagedSkillName) :
    ResourceId × Text × Text :=
  (skill.resourceId, skill.owner, skill.skillName)

section Names

variable {skills : List ManagedSkillName} {reservedNames : List Text}

theorem collides_iff {skill : ManagedSkillName} (hskill : skill ∈ skills)
    (hids : (skills.map ManagedSkillName.resourceId).Nodup) :
    collides skills reservedNames skill = true <->
      SharesName skills skill ∨ skill.skillName ∈ reservedNames := by
  unfold collides
  rw [Bool.or_eq_true, List.contains_iff_mem]
  apply or_congr_left
  rw [decide_eq_true_iff]
  constructor
  · intro hgroup
    by_contra halone
    have hnodup : (skills.filter fun other =>
        other.skillName = skill.skillName).Nodup :=
      (List.Nodup.of_map _ hids).filter _
    have hsub : (skills.filter fun other =>
        decide (other.skillName = skill.skillName)) ⊆ [skill] := by
      intro other hother
      rcases List.mem_filter.mp hother with ⟨hmem, hname⟩
      rw [List.mem_singleton]
      by_contra hne
      apply halone
      refine ⟨other, hmem, ?_, of_decide_eq_true hname⟩
      intro hid
      exact hne (List.inj_on_of_nodup_map hids hmem hskill hid)
    have hlength := (List.subperm_of_subset hnodup hsub).length_le
    exact absurd hgroup (Nat.not_lt.mpr hlength)
  · rintro ⟨other, hother, hid, hname⟩
    have hcollides := @collides_of_same_name _ [] _ _ hskill hother
      (fun heq => hid (by rw [heq])) hname.symm
    simpa [collides] using hcollides

/-- Where no skill of a shared name has its own name among its aliases, every
run names the skills canonically. -/
theorem namesCanonically_of_ownAlias {assignments : List ProjectionAssignment}
    (hids : (skills.map ManagedSkillName.resourceId).Nodup)
    (hforeign : forall skill, skill ∈ skills -> SharesName skills skill ->
      validCollisionAlias skill skill.skillName = false)
    (hrun : allocateProjectionNames skills reservedNames = some assignments) :
    NamesCanonically skills reservedNames assignments := by
  rw [allocateProjectionNames_eq, Option.map_eq_some_iff] at hrun
  rcases hrun with ⟨named, hnamed, rfl⟩
  intro skill hskill assigned hassigned hid
  rcases List.mem_map.mp hassigned with ⟨⟨other, name⟩, hentry, rfl⟩
  have hsame : other = skill := List.inj_on_of_nodup_map hids
    (mem_skills_of_named hnamed hentry) hskill hid
  subst other
  have hclaimed := @collides_iff _ reservedNames _ hskill hids
  rcases named_cases hnamed hentry hids with ⟨hfree, hkept | halias⟩
  · rw [hkept.1] at hclaimed
    have hunclaimed : ¬(SharesName skills skill ∨
        skill.skillName ∈ reservedNames) :=
      fun h => Bool.false_ne_true (hclaimed.mpr h)
    have hcanonical : (assignment skill name).derived = false := by
      simp [assignment, hkept.2]
    constructor
    · constructor
      · intro _
        exact not_or.mp hunclaimed
      · intro _
        exact ⟨hkept.2, hcanonical⟩
    · intro h
      exact absurd h hunclaimed
  · have hcontested := hclaimed.mp halias.1
    have hne : name ≠ skill.skillName := by
      rintro rfl
      rcases hcontested with hshared | hreserved
      · rw [hforeign skill hskill hshared] at halias
        exact Bool.false_ne_true halias.2
      · exact hfree hreserved
    have hderived : (assignment skill name).derived = true := by
      simp [assignment, hne]
    constructor
    · constructor
      · intro h
        exact absurd h.1 hne
      · intro h
        exact absurd hcontested (not_or.mpr h)
    · intro _
      exact ⟨hne, hderived⟩

/-!
## Earlier names
-/

theorem mem_of_identities {skills' : List ManagedSkillName}
    (h : skills'.map ManagedSkillName.identity =
      skills.map ManagedSkillName.identity) {later : ManagedSkillName}
    (hlater : later ∈ skills') :
    exists skill, skill ∈ skills ∧ Survives skill later := by
  have hmem := List.mem_map_of_mem (f := ManagedSkillName.identity) hlater
  rw [h] at hmem
  rcases List.mem_map.mp hmem with ⟨skill, hskill, hidentity⟩
  simp only [ManagedSkillName.identity, Prod.mk.injEq] at hidentity
  exact ⟨skill, hskill, hidentity.1.symm, hidentity.2.1.symm,
    hidentity.2.2.symm⟩

theorem ids_of_identities {skills' : List ManagedSkillName}
    (h : skills'.map ManagedSkillName.identity =
      skills.map ManagedSkillName.identity) :
    skills'.map ManagedSkillName.resourceId =
      skills.map ManagedSkillName.resourceId := by
  have hfirst := congrArg (List.map Prod.fst) h
  rw [List.map_map, List.map_map] at hfirst
  exact hfirst

theorem SharesName.of_identities {skills' : List ManagedSkillName}
    (h : skills'.map ManagedSkillName.identity =
      skills.map ManagedSkillName.identity) {skill later : ManagedSkillName}
    (hsurvives : Survives skill later) (hshares : SharesName skills' later) :
    SharesName skills skill := by
  rcases hshares with ⟨other, hother, hid, hname⟩
  rcases mem_of_identities h hother with ⟨earlier, hearlier, hsame⟩
  refine ⟨earlier, hearlier, ?_, ?_⟩
  · rw [← hsame.resourceId, ← hsurvives.resourceId]
    exact hid
  · rw [← hsame.skillName, ← hsurvives.skillName]
    exact hname

/-- The skill alone is remembered by its own name. -/
def ManagedSkillName.rememberedIf (resourceId : ResourceId)
    (skill : ManagedSkillName) : ManagedSkillName :=
  { skill with
    previousHarnessName :=
      if skill.resourceId = resourceId then some skill.skillName else none }

/-- A skill that is remembered by its own name, which is one of its aliases,
keeps it although another skill has it too. -/
theorem not_namesCanonically_remembered {skill : ManagedSkillName}
    (hids : (skills.map ManagedSkillName.resourceId).Nodup)
    (hskills : skills.length < 2 ^ 61) (hskill : skill ∈ skills)
    (hshares : SharesName skills skill)
    (halias : validCollisionAlias skill skill.skillName = true) :
    exists assignments,
      allocateProjectionNames
          (skills.map (ManagedSkillName.rememberedIf skill.resourceId)) [] =
        some assignments ∧
      ¬NamesCanonically
        (skills.map (ManagedSkillName.rememberedIf skill.resourceId)) []
        assignments := by
  let remembered := ManagedSkillName.rememberedIf skill.resourceId
  have hidentity : (skills.map remembered).map ManagedSkillName.identity =
      skills.map ManagedSkillName.identity := by
    rw [List.map_map]
    rfl
  have hids' : ((skills.map remembered).map
      ManagedSkillName.resourceId).Nodup := by
    rw [ids_of_identities hidentity]
    exact hids
  have hlater : remembered skill ∈ skills.map remembered :=
    List.mem_map_of_mem hskill
  have hsurvives : Survives (remembered skill) skill := ⟨rfl, rfl, rfl⟩
  have hshares' : SharesName (skills.map remembered) (remembered skill) :=
    hshares.of_identities hidentity.symm hsurvives
  have hcollides : collides (skills.map remembered) [] (remembered skill) =
      true :=
    (collides_iff hlater hids').mpr (.inl hshares')
  rcases @exists_named (skills.map remembered) []
    (by rw [List.length_map]; exact hskills) (by decide) with ⟨named, hnamed⟩
  have hresult : allocateProjectionNames (skills.map remembered) [] =
      some (named.map fun entry => assignment entry.1 entry.2) := by
    rw [allocateProjectionNames_eq, hnamed]
    rfl
  have hsettled : settledName (skills.map remembered) [] (remembered skill) =
      some skill.skillName := by
    apply settledName_of_claim hids' hlater hcollides
    · show (if skill.resourceId = skill.resourceId then _ else _) = _
      rw [if_pos rfl]
    · rw [← hsurvives.validCollisionAlias]
      exact halias
    · intro hcanonical
      rcases mem_canonicalNames.mp hcanonical with
        ⟨other, hother, hkept, hname⟩ | hreserved
      · have hmem := mem_orderedSkills.mp hother
        by_cases hid : other.resourceId = skill.resourceId
        · have hsame : other = remembered skill :=
            List.inj_on_of_nodup_map hids' hmem hlater hid
          rw [hsame, hcollides] at hkept
          cases hkept
        · have hother : SharesName (skills.map remembered) other :=
            ⟨remembered skill, hlater, fun h => hid h.symm, hname.symm⟩
          rw [(collides_iff hmem hids').mpr (.inl hother)] at hkept
          cases hkept
      · exact List.not_mem_nil hreserved
    · intro other hother hprevious
      rcases List.mem_map.mp hother with ⟨earlier, _, rfl⟩
      by_contra hid
      have hnone : (remembered earlier).previousHarnessName = none :=
        if_neg hid
      rw [hnone] at hprevious
      cases hprevious
  have hname := harnessNameOf_of_settled hids' hnamed hlater hsettled
  rcases harnessNameOf_map hname with ⟨other, hentry, hid⟩
  refine ⟨_, hresult, fun hcanonically => ?_⟩
  have hassigned : assignment other skill.skillName ∈
      named.map fun entry => assignment entry.1 entry.2 :=
    List.mem_map.mpr ⟨_, hentry, rfl⟩
  exact ((hcanonically _ hlater _ hassigned hid).2 (.inl hshares')).1 rfl

end Names

namespace Sample

/-- A name of 64 characters that starts over after its third one. -/
def periodicName : Text :=
  (List.replicate 21 ['a', 'b', '-']).flatten ++ ['a']

def periodicSkill (n : UInt8) (owner : Text) : ManagedSkillName where
  resourceId := resourceId n
  owner
  skillName := periodicName
  previousHarnessName := none

def periodicSkills : List ManagedSkillName :=
  [periodicSkill 2 ['a', 'b'], periodicSkill 3 ['z', 'e', 'd']]

theorem periodicSkills_named :
    validateSkillName periodicName = .ok () ∧
      (allocateProjectionNames periodicSkills []).bind List.head? =
        some ⟨resourceId 2, periodicName, false⟩ := by
  decide +kernel

end Sample

end Denju
