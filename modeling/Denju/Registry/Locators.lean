import Denju.Registry.NamingRuns
import Denju.Registry.SaveRuns

/-!
# Locators over runs

A locator leads to the live resource that holds its name, and otherwise to the
one that a redirect of the name points to.  As long as no name is taken at
which a redirect stays, no redirect stands beside a live resource, and a
redirect leads only to what has held its name before.
-/

namespace Denju

open Lib

namespace Service

variable {registry : Registry} {service : Service registry}

/-- The plans of the renames that are under way. -/
def PlansMove (service : Service registry) : Prop :=
  forall plan, plan ∈ service.plans -> plan.Moves

theorem settle_moves {α : Type} {result : Except ApiError (α × Db)}
    (h : service.PlansMove) : (service.settle result).PlansMove :=
  settle_of h fun _ _ _ => h

theorem await_moves {α β : Type} {plan : β -> Plan registry.ext}
    {result : Except ApiError (α ⊕ β)} (h : service.PlansMove)
    (hread : forall read, result = .ok (.inr read) -> (plan read).Moves) :
    (service.await plan result).PlansMove := by
  refine await_of h ?_
  intro read hresult other hother
  rcases List.mem_append.mp hother with hold | hnew
  · exact h other hold
  · rw [List.mem_singleton.mp hnew]
    exact hread read hresult

theorem writePlan_moves (newConflictId : Uuid) (plan : Plan registry.ext)
    (h : service.PlansMove) :
    (service.writePlan newConflictId plan).PlansMove := by
  cases plan with
  | importing plan => exact settle_moves h
  | save plan => exact settle_moves h
  | restore plan => exact settle_moves h
  | rename plan => exact settle_moves h

theorem serve_moves (call : ServiceCall) (h : service.PlansMove) :
    (service.serve call).PlansMove := by
  cases call with
  | commitImport => exact await_moves h fun _ _ => trivial
  | commit => exact await_moves h fun _ _ => trivial
  | restore => exact await_moves h fun _ _ => trivial
  | rename => exact await_moves h fun _ => Registry.readRename_moves
  | write index newConflictId =>
      refine writeAt_of h ?_
      intro plan _
      refine writePlan_moves newConflictId plan ?_
      intro other hother
      exact h other (List.mem_of_mem_eraseIdx hother)
  | prepareImport => exact settle_moves h
  | prepare => exact settle_moves h
  | publish => exact settle_moves h
  | createProposal => exact settle_moves h
  | acceptProposal => exact settle_moves h

theorem mutate_moves (mutation : Mutation) (h : service.PlansMove) :
    (service.mutate mutation).PlansMove := by
  cases mutation with
  | activity activity =>
      cases activity with
      | call call => exact serve_moves call h
      | unpublish => exact settle_moves h
      | prune => exact settle_moves h
      | transfer => exact settle_moves h
      | collect => exact settle_moves h
  | deleteSkill => exact settle_moves h
  | deprecateSkill => exact settle_moves h
  | share => exact settle_moves h
  | quarantine => exact settle_moves h
  | createPack => exact settle_moves h
  | mutatePack => exact settle_moves h
  | publishPack => exact settle_moves h
  | renamePack => exact settle_moves h
  | unpublishPack => exact settle_moves h
  | deletePack => exact settle_moves h
  | transferPack => exact settle_moves h
  | subscribe => exact settle_moves h
  | subscribePack => exact settle_moves h
  | assignPack => exact settle_moves h

end Service

namespace Site

variable {registry : Registry} {site : Site registry} {directory : Directory}

/-- The operation leaves no redirect at the name it gives. -/
def clearsName (site : Site registry) : Operation -> Bool
  | .mutation mutation => site.service.clearsName mutation
  | _ => true

/-- What holds of the names in every run. -/
structure Placed (site : Site registry) : Prop where
  located : site.db.Located
  moves : site.service.PlansMove

theorem placed_empty : (empty registry directory).Placed where
  located :=
    { keyed := List.nodup_nil
      owned := fun _ hrow => by cases hrow
      packed := fun _ hrow => by cases hrow
      unique := by
        rintro _ _ _ ⟨_, hrow, _⟩
        cases hrow }
  moves := fun _ hplan => by cases hplan

theorem advance_renames {packId : Uuid} {event : PackReleaseEvent}
    {advanced : Bool} {db' : Db} {clears : Prop} (hl : site.db.Located)
    (h : advancePackForReleaseEvent packId event site.db =
      .ok (advanced, db')) : Db.Renames clears site.db db' := by
  rcases bind_eq_ok.mp h with ⟨⟨pack, stored⟩, hstored, h⟩
  have hchange := advancePackForReleaseEvent_change hstored
  dsimp only at h
  split at h
  · cases h
    exact hchange.sameNames.renames hl
  · cases h
    exact hchange.wake.sameNames.renames hl

/-- One operation gives at most one resource another name. -/
theorem operate_renames (operation : Operation) (h : site.Placed) :
    Db.Renames (site.clearsName operation = true) site.db
        (site.operate operation).db ∧ (site.operate operation).Placed := by
  have hsame : Db.Renames (site.clearsName operation = true) site.db site.db :=
    (Db.SameNames.refl _).renames h.located
  have hrename : Db.Renames (site.clearsName operation = true) site.db
      (site.operate operation).db ∧ (site.operate operation).service.PlansMove := by
    cases operation with
    | mutation mutation =>
        exact ⟨Service.mutate_renames mutation h.located h.moves,
          Service.mutate_moves mutation h.moves⟩
    | drain =>
        unfold operate
        dsimp only
        split
        · exact ⟨hsame, h.moves⟩
        · exact ⟨hsame, h.moves⟩
    | work index =>
        show Db.Renames _ site.db (site.work index).db ∧
          (site.work index).service.PlansMove
        unfold work
        split
        · exact ⟨hsame, h.moves⟩
        · rename_i task _
          cases task with
          | search event => exact ⟨hsame, h.moves⟩
          | advance packId event =>
              exact ⟨Service.settle_renames h.located fun _ _ hadvanced =>
                advance_renames h.located hadvanced,
                Service.settle_moves h.moves⟩
          | complete event =>
              refine ⟨?_, h.moves⟩
              show Db.Renames _ site.db (site.db.completeReleaseEvent event.id)
              unfold Db.completeReleaseEvent
              split
              · exact hsame
              · exact Db.SameNames.renames ⟨rfl, rfl, rfl, rfl⟩ h.located
  exact ⟨hrename.1, hrename.1.located, hrename.2⟩

/-!
## Names that lead nowhere else
-/

/-- The names hold and point without a conflict. -/
structure Clear (site : Site registry) : Prop where
  placed : site.Placed
  sound : site.db.names.Sound

theorem clear_empty : (empty registry directory).Clear where
  placed := placed_empty
  sound :=
    { unique := placed_empty.located.unique
      direct := by
        rintro _ _ _ ⟨_, hrow, _⟩
        cases hrow }

/-- Operations that leave no redirect at a name they give. -/
def ClearsNames (site : Site registry) (operation : Operation) : Prop :=
  site.clearsName operation = true

instance (site : Site registry) (operation : Operation) :
    Decidable (site.ClearsNames operation) :=
  inferInstanceAs (Decidable (_ = true))

theorem operates_clear {operation : Operation} {site' : Site registry}
    (h : site.Clear) (hstep : Operates ClearsNames site operation site') :
    site'.Clear ∧
      exists item, Names.Changes item site.db.names site'.db.names := by
  rcases hstep with ⟨hclears, rfl⟩
  rcases operate_renames operation h.placed with ⟨hrenames, hplaced⟩
  rcases hrenames.changes with ⟨item, hchanges, htaken⟩
  exact ⟨⟨hplaced, (hchanges.sound_iff h.sound).mpr (htaken hclears)⟩, item,
    hchanges⟩

/-- In a sound registry a name that a viewer finds live has no redirect. -/
theorem redirectedAt_of_sound (h : site.db.names.Sound) (viewer : Viewer)
    (kind : ResourceKind) (owner slug : Text) :
    site.db.activeAt viewer kind owner slug = none ∨
      site.db.redirectedAt viewer kind owner slug = none := by
  by_contra hboth
  rw [not_or] at hboth
  rcases Option.ne_none_iff_exists'.mp hboth.1 with ⟨row, hrow⟩
  rcases Option.ne_none_iff_exists'.mp hboth.2 with ⟨target, htarget⟩
  rcases Option.bind_eq_some_iff.mp hrow with ⟨space, hspace, hactive⟩
  rcases Option.bind_eq_some_iff.mp htarget with ⟨other, hother, hredirected⟩
  rcases Option.bind_eq_some_iff.mp hredirected with
    ⟨redirect, hredirect, _⟩
  rw [hspace] at hother
  cases hother
  have hheld := List.find?_some hactive
  have hpoints := List.find?_some hredirect
  simp only [Db.holdsName, Db.atName, Bool.and_eq_true,
    decide_eq_true_eq] at hheld hpoints
  refine h.direct row.id (space.id, kind, slug) redirect.targetResourceId
    ⟨row, List.mem_of_find?_eq_some hactive, rfl, hheld.1.2.2.2, ?_⟩
    ⟨redirect, List.mem_of_find?_eq_some hredirect, ?_, rfl⟩
  · unfold ResourceRow.name
    rw [hheld.1.1, hheld.1.2.1, hheld.1.2.2.1]
  · unfold RedirectRow.name
    rw [hpoints.1.1, hpoints.1.2.1, hpoints.1.2.2]

/-- In a run whose operations leave no redirect at a name they give, no
redirect stands at the name of a live resource, the two ways to resolve a
locator do not both answer, and a redirect at a name that has been held leads
to a resource that has held the name since. -/
theorem locators_fresh {past : List Operation}
    (hrun : Run (Operates ClearsNames) (empty registry directory) past site) :
    (forall redirect row, redirect ∈ site.db.redirects ->
        row ∈ site.db.resources -> row.deleted = false ->
          row.name ≠ redirect.name) ∧
      (forall viewer kind owner slug,
        site.db.activeAt viewer kind owner slug = none ∨
          site.db.redirectedAt viewer kind owner slug = none) ∧
      forall later site' row redirect,
        Run (Operates ClearsNames) site later site' ->
          row ∈ site.db.resources -> row.deleted = false ->
            redirect ∈ site'.db.redirects -> redirect.name = row.name ->
              exists early late, later = early ++ late ∧
                exists middle, Run (Operates ClearsNames) site early middle ∧
                  Run (Operates ClearsNames) middle late site' ∧
                    exists held, held ∈ middle.db.resources ∧
                      held.id = redirect.targetResourceId ∧
                        held.deleted = false ∧ held.name = row.name := by
  have hclear : site.Clear :=
    hrun.invariant clear_empty fun _ _ _ h hstep => (operates_clear h hstep).1
  refine ⟨?_, redirectedAt_of_sound hclear.sound, ?_⟩
  · intro redirect row hredirect hrow hlive hname
    exact hclear.sound.direct row.id row.name redirect.targetResourceId
      ⟨row, hrow, rfl, hlive, rfl⟩ ⟨redirect, hredirect, hname.symm, rfl⟩
  · intro later site' row redirect hlater hrow hlive hredirect hname
    rcases (Names.points_held (P := Clear) (fun other => other.db.names)
      (fun _ h => h.sound) (fun _ _ _ => operates_clear) hclear
      ⟨row, hrow, rfl, hlive, rfl⟩ hlater).2
        ⟨redirect, hredirect, hname, rfl⟩ with
      ⟨early, late, middle, hevents, hearly, hlate, held, hmem, hid, hlive',
        hname'⟩
    exact ⟨early, late, hevents, middle, hearly, hlate, held, hmem, hid,
      hlive', hname'⟩

end Site

/-!
## A name that is taken again

A pack gives up its name and leaves a redirect.  Another pack takes the name
without touching the redirect.
-/

namespace Sample

def namingHashes : List (Uuid × RequestHash) :=
  [ (uuid 51, digestOfNat
      0x505db716ddadaa90982d4c60df4a0ae8283c51298070ed3503d36fe647411810),
    (uuid 52, digestOfNat
      0x293e981037081b104bd5a996a115d4b3e056bdfd845d4b14c54f2f99eca3794d),
    (uuid 53, digestOfNat
      0xf19c14205ee01af541ecd5d9d341e90a3ba9ac98b62d534541ce4f23e77e44e0),
    (uuid 54, digestOfNat
      0x6c9d6031d11013877af981e2748f94f2406d15204814da1d11ea1ff4305a4f2b),
    (uuid 55, digestOfNat
      0x232925b706fefee72cc8c1761e43eb87b7fc4a218e81c019a6ba6c97d3fd54b3) ]

def namingHashOf (operation : UInt8) : RequestHash :=
  (namingHashes.lookup (uuid operation)).getD (Vector.replicate 32 0)

def naming : Registry :=
  registryOf [] namingHashes

def packCreation (operation pack : UInt8) (slug : String) : Operation :=
  .mutation (.createPack (uuid pack) amy.id
    { operationId := operationId operation
      owner := "amy".toList
      name := slug.toList
      requestHash := namingHashOf operation })

def packRenaming : Operation :=
  .mutation (.renamePack amy.id
    { operationId := operationId 52
      resourceId := uuid 4
      expectedGeneration := 1
      newName := "b".toList
      requestHash := namingHashOf 52 })

def packDeletion : Operation :=
  .mutation (.deletePack amy.id
    { operationId := operationId 54
      resourceId := uuid 50
      expectedGeneration := 1
      requestHash := namingHashOf 54 })

def namingSite (operations : List Operation) : Site naming :=
  operations.foldl Site.operate (.empty naming directory)

/-- The packs that the two ways of resolving `amy/a` find. -/
def answers (site : Site naming) : Option Uuid × Option Uuid :=
  let found (row : Option ResourceRow) := row.map ResourceRow.id
  (found (site.db.activeAt (.user amy.id) .pack "amy".toList "a".toList),
    found (site.db.redirectedAt (.user amy.id) .pack "amy".toList "a".toList))

/-- One pack moves from `a` to `b`, and another one is created at `a`. -/
def retaking : List Operation :=
  [packCreation 51 4 "a", packRenaming, packCreation 53 50 "a"]

/-- The other pack is created elsewhere. -/
def leaving : List Operation :=
  [packCreation 51 4 "a", packRenaming, packCreation 55 50 "c"]

end Sample

theorem Site.locators_go_stale :
    Run (Site.Operates fun _ _ => True)
        (Site.empty Sample.naming Sample.directory)
        (Sample.retaking ++ [Sample.packDeletion])
        (Sample.namingSite (Sample.retaking ++ [Sample.packDeletion])) ∧
      Sample.answers (Sample.namingSite Sample.retaking) =
        (some (Sample.uuid 50), some (Sample.uuid 4)) ∧
      Sample.answers
          (Sample.namingSite (Sample.retaking ++ [Sample.packDeletion])) =
        (none, some (Sample.uuid 4)) := by
  constructor
  · exact Run.guarded_of_all (by decide +kernel)
  · constructor
    · decide +kernel
    · decide +kernel

/-- The name stays free after the first pack has moved. -/
theorem Site.locators_fresh_after_rename :
    Sample.answers (Sample.namingSite Sample.leaving) =
      (none, some (Sample.uuid 4)) ∧
    forall redirect row,
      redirect ∈ (Sample.namingSite Sample.leaving).db.redirects ->
        row ∈ (Sample.namingSite Sample.leaving).db.resources ->
          row.deleted = false -> row.name ≠ redirect.name := by
  constructor
  · decide +kernel
  · have hrun : Run (Site.Operates Site.ClearsNames)
        (Site.empty Sample.naming Sample.directory) Sample.leaving
        (Sample.namingSite Sample.leaving) :=
      Run.guarded_of_all (by decide +kernel)
    exact (Site.locators_fresh hrun).1

end Denju
