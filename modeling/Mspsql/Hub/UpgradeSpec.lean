import Mspsql.Hub.UpgradeMoves

/-!
# What an upgrade reconcile can write

A reconcile of a `PostgresUpgrade` patches the instance at most once.  Such a patch gives
the instance back, or it expects the next revision; and a patch that replaces a recorded
step by what follows it is made only when every entry of the status reports the active
revision and that revision is the expected one or a later one.
-/

namespace Mspsql

open List

/-- The recorded step is one the controller waits for: a major phase, or a minor `Member`
or `Finalize` step. -/
def UpgradePhaseValue.awaited : UpgradePhaseValue → Bool
  | .major _ | .minor .member | .minor .finalize => true
  | _ => false

/-- What a patch by the upgrade `u`, which read `view`, may do. -/
structure PatchSpec (u : PostgresUpgrade) (view : MultiSitePostgres) (kind : PatchKind)
    (modified : MultiSitePostgres) : Prop where
  owner : modified.annotations.upgradeUID = "" ∨
    modified.annotations.upgradeExpectedRevision = some (view.status.activeRevision + 1) ∧
      (modified.annotations.upgradeUID = u.uid ∧ modified.annotations.upgradeName = u.name ∨
        modified.annotations.upgradeUID = view.annotations.upgradeUID ∧
          modified.annotations.upgradeName = view.annotations.upgradeName)
  gate : kind = .advance → view.annotations.upgradeUID = u.uid ∧
    view.annotations.upgradePhase.awaited = true ∧ majorPhaseApplied view = true
  release : kind = .release → view.annotations.upgradeUID = u.uid ∧ u.terminal = true

inductive WritesSpec (u : PostgresUpgrade) (view : MultiSitePostgres) :
    List UpgradeWrite → Prop where
  | none {writes : List UpgradeWrite} (h : ∀ w ∈ writes, w.isPatch = false) :
      WritesSpec u view writes
  | one {before rest : List UpgradeWrite} {kind : PatchKind} {modified : MultiSitePostgres}
      (hbefore : ∀ w ∈ before, w.isPatch = false) (hrest : ∀ w ∈ rest, w.isPatch = false)
      (hpatch : PatchSpec u view kind modified) :
      WritesSpec u view (before ++ .patchInstance kind view modified :: rest)

namespace WritesSpec

variable {u : PostgresUpgrade} {view : MultiSitePostgres} {writes : List UpgradeWrite}

theorem take (h : WritesSpec u view writes) (n : Nat) : WritesSpec u view (writes.take n) := by
  cases h with
  | none h => exact .none fun w hw => h w (mem_of_mem_take hw)
  | @one before rest kind modified hbefore hrest hpatch =>
    rw [take_append]
    rcases hcount : n - before.length with _ | m
    · rw [take_zero, append_nil]
      exact .none fun w hw => hbefore w (mem_of_mem_take hw)
    exact .one (fun w hw => hbefore w (mem_of_mem_take hw))
      (fun w hw => hrest w (mem_of_mem_take hw)) hpatch

end WritesSpec

theorem awaited_of_last {phase : UpgradePhaseValue} (h : phase.last = true) :
    phase.awaited = true := by
  unfold UpgradePhaseValue.last at h
  split at h <;> first | rfl | cases h

section Patches

variable {u : PostgresUpgrade} {view : MultiSitePostgres}

theorem patchSpec_owned {kind : PatchKind} {modified : MultiSitePostgres}
    (hexpected : modified.annotations.upgradeExpectedRevision =
      some (view.status.activeRevision + 1))
    (huid : modified.annotations.upgradeUID = view.annotations.upgradeUID)
    (hname : modified.annotations.upgradeName = view.annotations.upgradeName)
    (h : kind = .advance → view.annotations.upgradeUID = u.uid ∧
      view.annotations.upgradePhase.awaited = true ∧ majorPhaseApplied view = true)
    (hrelease : kind ≠ .release) : PatchSpec u view kind modified :=
  ⟨.inr ⟨hexpected, .inr ⟨huid, hname⟩⟩, h, fun he => absurd he hrelease⟩

theorem Move.patchSpec {kind : PatchKind} {modified : MultiSitePostgres}
    (h : Move u view kind modified) : PatchSpec u view kind modified := by
  cases h with
  | claimMajor | claimMinor =>
    exact ⟨.inr ⟨rfl, .inl ⟨rfl, rfl⟩⟩, fun h => (by cases h), nofun⟩
  | advance _ howned hphase _ happlied | finalizeMajor _ howned hphase happlied =>
    exact patchSpec_owned rfl rfl rfl (fun _ => ⟨howned, by rw [hphase]; rfl, happlied⟩) (by decide)
  | rollBack => exact patchSpec_owned rfl rfl rfl nofun (by decide)
  | switching _ howned hphase _ _ hready | nextMember _ howned hphase _ _ _ hready
  | finalizeMinor _ howned hphase _ _ _ hready =>
    exact patchSpec_owned rfl rfl rfl
      (fun _ => ⟨howned, by rw [hphase]; rfl, majorPhaseApplied_of_ready hready⟩) (by decide)
  | switchedOver => exact patchSpec_owned rfl rfl rfl nofun (by decide)
  | release howned hterminal =>
    exact ⟨.inl rfl, fun h => (by cases h), fun _ => ⟨howned, hterminal⟩⟩
  | abandon => exact ⟨.inl rfl, fun h => (by cases h), nofun⟩

end Patches

theorem reconcileUpgrade_spec (reads : HubReads) (u : PostgresUpgrade)
    (view : MultiSitePostgres) (now : Time) (directives : List DirectiveMap) :
    WritesSpec u view (reconcileUpgrade reads u (some view) now directives) := by
  have hmoves := reconcileUpgrade_moves reads u view now directives
  generalize reconcileUpgrade reads u (some view) now directives = writes at hmoves
  cases hmoves with
  | none h => exact .none h
  | @move rest kind modified hmove hrest =>
    exact @WritesSpec.one u view [] rest kind modified
      (fun _ hw => absurd hw not_mem_nil) hrest hmove.patchSpec
  | finish _ howned hlast _ happlied =>
    refine .one (not_patch_singleton rfl) (fun _ hw => absurd hw not_mem_nil)
      ⟨.inl rfl, fun _ => ⟨howned, awaited_of_last hlast, happlied⟩, nofun⟩

end Mspsql
