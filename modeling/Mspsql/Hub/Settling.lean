import Mspsql.Hub.Ownership

/-!
# When an upgrade is done

The status of an upgrade becomes final in its last phase only, so a finished upgrade that
still owns the instance owns it in a last phase.
-/

namespace Mspsql

open List

def UpgradeWrite.settles : UpgradeWrite → Bool
  | .setStatus status => status.phase = "Completed" ∨ status.phase = "Failed"
  | _ => false

theorem text_not_final {phase : UpgradePhaseValue}
    (h : (∃ p, phase = .major p) ∨ ∃ p, phase = .minor p) :
    ¬ (phase.text = "Completed" ∨ phase.text = "Failed") := by
  rcases h with ⟨p, rfl⟩ | ⟨p, rfl⟩ <;> cases p <;> decide

/-- An upgrade that is not done is settled in a last phase, or without a change of the instance. -/
theorem UpgradeCase.of_settles {reads : HubReads} {u : PostgresUpgrade} {view : MultiSitePostgres}
    {writes : List UpgradeWrite} {w : UpgradeWrite} (h : UpgradeCase reads u view writes)
    (hw : w ∈ writes) (hsettles : w.settles = true) (hopen : u.terminal = false) :
    view.annotations.upgradeUID = u.uid ∧ (view.annotations.upgradePhase.last = true ∨
        view.annotations.upgradePhase.text = "Completed" ∨
          view.annotations.upgradePhase.text = "Failed") ∨
      view.annotations.upgradeUID = "" ∧ ∀ w ∈ writes, w.isPatch = false := by
  have hquiet (h : w = .removeFinalizer ∨ Quiet u view w) :
      view.annotations.upgradeUID = u.uid ∧ (view.annotations.upgradePhase.text = "Completed" ∨
        view.annotations.upgradePhase.text = "Failed") := by
    rcases h with rfl | h
    · cases hsettles
    cases h with
    | setStatus _ phase =>
      have hfinal := of_decide_eq_true hsettles
      rcases phase hfinal with hterminal | ⟨howned, htext⟩
      · rw [hopen] at hterminal
        cases hterminal
      · exact ⟨howned, htext ▸ hfinal⟩
    | addFinalizer | createDirective => cases hsettles
  cases h with
  | quiet h => exact .inl ((hquiet (.inr (h w hw))).imp_right .inr)
  | move _ h =>
    rcases mem_pair.mp hw with rfl | rfl
    · cases hsettles
    · exact .inl ((hquiet (.inr h)).imp_right .inr)
  | finish _ owned last => exact .inl ⟨owned, .inl last⟩
  | complete free => exact .inr ⟨free, not_patch_singleton rfl⟩
  | conflict =>
    rw [mem_singleton.mp hw] at hsettles
    cases hsettles
  | clear _ _ h =>
    rcases mem_cons.mp hw with rfl | hw
    · cases hsettles
    · exact .inl ((hquiet (h w hw)).imp_right .inr)
  | keep _ _ h => exact .inl ((hquiet (h w hw)).imp_right .inr)

namespace HubState

theorem applyUpgradeWrites_terminal {s : HubState} {name : String} {writes : List UpgradeWrite}
    {u : PostgresUpgrade} (h : u ∈ (s.applyUpgradeWrites name writes).upgrades)
    (hterminal : u.terminal = true) :
    ∃ v ∈ s.upgrades, v.uid = u.uid ∧
      (v.terminal = true ∨ v.name = name ∧ ∃ w ∈ writes, w.settles = true) := by
  obtain ⟨v, hv, hrequest, hstatus⟩ := applyUpgradeWrites_origin h
  refine ⟨v, hv, hrequest.1.symm, hstatus.imp (fun hsame => ?_) fun ⟨hname, hset⟩ => ?_⟩
  · rw [PostgresUpgrade.terminal, ← hsame]
    exact hterminal
  · exact ⟨hname, _, hset, hterminal⟩

structure Settled (s : HubState) : Prop where
  phases : s.stored.annotations.upgradeUID ≠ "" →
    (∃ p, s.stored.annotations.upgradePhase = .major p) ∨
      ∃ p, s.stored.annotations.upgradePhase = .minor p
  last : ∀ u ∈ s.upgrades, u.terminal = true → s.stored.annotations.upgradeUID = u.uid →
    s.stored.annotations.upgradePhase.last = true

namespace Settled

variable {config : HubConfig} {s t : HubState} {u : PostgresUpgrade} {name : String}

theorem initial (h : Initial config s) : Settled s where
  phases huid := absurd h.upgradeUID huid
  last u hu := by
    rw [h.upgrades] at hu
    cases hu

theorem frame (h : Settled s) (howned : Owned s)
    (hpart : t.stored.annotations.upgradePart = s.stored.annotations.upgradePart)
    (horigin : ∀ u ∈ t.upgrades, u.terminal = true →
      (∃ v ∈ s.upgrades, v.uid = u.uid ∧ v.terminal = true) ∨
        u.uid ≠ "" ∧ u.uid ∉ s.upgradeUIDs) : Settled t := by
  obtain ⟨huid, -, hphase, -, -⟩ := sameUpgrade hpart
  constructor
  · rw [huid, hphase]
    exact h.phases
  intro u hu hterminal hu'
  rw [huid] at hu'
  rw [hphase]
  rcases horigin u hu hterminal with ⟨v, hv, hvuid, hvterminal⟩ | ⟨hne, hfresh⟩
  · exact h.last v hv hvterminal (hu'.trans hvuid.symm)
  rcases howned.owners _ howned.stored_mem with hfree | ⟨hknown, -⟩
  · exact absurd (hu'.symm.trans hfree) hne
  · exact absurd (hu' ▸ hknown) hfresh

/-- The owner after a move: nobody, the one before, for whom nothing follows a last phase, or
an upgrade that took the free instance. -/
theorem owner_of_moved (hmoved : Moved u s.stored name s t) : t.stored.annotations.upgradeUID = "" ∨
      t.stored.annotations.upgradeUID = s.stored.annotations.upgradeUID ∧
        (s.stored.annotations.upgradePhase.last = true →
          t.stored.annotations.upgradePhase = s.stored.annotations.upgradePhase) ∨
      s.stored.annotations.upgradeUID = "" ∧ u.running ∧ t.stored ≠ s.stored ∧
        t.stored.annotations.upgradeUID = u.uid := by
  cases hmoved with
  | none stored => exact .inr (.inl ⟨by rw [stored], fun _ => by rw [stored]⟩)
  | finish _ _ _ _ stored => exact .inl (patched stored rfl).uid
  | @move kind modified hmove stored =>
    have huid := (patched stored rfl).uid
    have hgoes : modified.annotations.upgradeUID = s.stored.annotations.upgradeUID →
        s.stored.annotations.upgradePhase.last = false →
        t.stored.annotations.upgradeUID = s.stored.annotations.upgradeUID ∧
          (s.stored.annotations.upgradePhase.last = true →
            t.stored.annotations.upgradePhase = s.stored.annotations.upgradePhase) := by
      intro hsame hnot
      refine ⟨huid.trans hsame, fun hlast => ?_⟩
      rw [hnot] at hlast
      cases hlast
    cases hmove with
    | claimMajor running free | claimMinor running free =>
      by_cases heq : t.stored = s.stored
      · exact .inl (heq ▸ free)
      · exact .inr (.inr ⟨free, running, heq, huid⟩)
    | release | abandon => exact .inl huid
    | @advance phase next _ _ recorded follows =>
      refine .inr (.inl (hgoes rfl ?_))
      rw [recorded]
      cases phase <;> first | rfl | cases follows
    | @rollBack phase _ recorded rollsBack =>
      refine .inr (.inl (hgoes rfl ?_))
      rw [recorded]
      cases phase <;> first | rfl | cases rollsBack
    | finalizeMajor _ _ recorded | switching _ _ recorded | nextMember _ _ recorded
    | finalizeMinor _ _ recorded | switchedOver _ _ recorded =>
      exact .inr (.inl (hgoes rfl (by rw [recorded]; rfl)))

theorem phases_of_moved (h : Settled s) (hmoved : Moved u s.stored name s t) :
    t.stored.annotations.upgradeUID ≠ "" → (∃ p, t.stored.annotations.upgradePhase = .major p) ∨
        ∃ p, t.stored.annotations.upgradePhase = .minor p := by
  intro hheld
  cases hmoved with
  | none stored =>
    rw [stored] at hheld ⊢
    exact h.phases hheld
  | finish _ _ _ _ stored => exact absurd (patched stored rfl).uid hheld
  | move hmove stored =>
    have hnew := patched stored rfl
    rw [hnew.phase]
    cases hmove with
    | release | abandon => exact absurd hnew.uid hheld
    | claimMajor | advance | finalizeMajor | rollBack => exact .inl ⟨_, rfl⟩
    | nextMember _ _ recorded => exact .inr ⟨_, recorded⟩
    | claimMinor | switching | finalizeMinor | switchedOver => exact .inr ⟨_, rfl⟩

theorem upgrade (h : Settled s) (howned : Owned s) (hu : s.upgrade? name = some u)
    (reads : HubReads) (now : Time) (writes : Nat) :
    Settled (s.applyUpgradeWrites name
      ((reconcileUpgrade (s.readsOf reads) u (some s.stored) now s.directives).take writes)) := by
  have hmem : u ∈ s.upgrades := mem_of_find?_eq_some hu
  have hmoved := @upgrade_moved u s s.stored name reads now writes
  refine ⟨h.phases_of_moved hmoved, fun x hx hterminal hxuid => ?_⟩
  obtain ⟨v, hv, hvuid, hdone⟩ := applyUpgradeWrites_terminal hx hterminal
  have hheld := howned.uid_ne hv
  rcases owner_of_moved hmoved with hfree | ⟨huid, hphase⟩ | ⟨hfree, hrunning, hne, huid⟩
  · exact absurd (hvuid.trans (hxuid.symm.trans hfree)) hheld
  · have howner : s.stored.annotations.upgradeUID = v.uid :=
      huid.symm.trans (hxuid.trans hvuid.symm)
    have hlast : s.stored.annotations.upgradePhase.last = true := by
      by_contra hnot
      by_cases hopen : v.terminal = true
      · exact hnot (h.last v hv hopen howner)
      obtain ⟨hname, w, hw, hsettles⟩ := hdone.resolve_left hopen
      obtain rfl := eq_of_upgrade? howned.names hu hv hname
      rcases (reconcileUpgrade_case ..).of_settles (mem_of_mem_take hw) hsettles
        (Bool.not_eq_true _ ▸ hopen) with ⟨-, hlast | htext⟩ | ⟨hfree, -⟩
      · exact hnot hlast
      · exact text_not_final (h.phases (howner ▸ hheld)) htext
      · exact hheld (howner.symm.trans hfree)
    rw [hphase hlast]
    exact hlast
  · -- an upgrade that takes the instance is not finished and is not finished by this reconcile
    exfalso
    obtain rfl := howned.keyed.eq_of_uid hv hmem (hvuid.trans (hxuid.symm.trans huid))
    rcases hdone with hfinal | ⟨-, w, hw, hsettles⟩
    · rw [hrunning.2.1] at hfinal
      cases hfinal
    rcases (reconcileUpgrade_case ..).of_settles (mem_of_mem_take hw) hsettles hrunning.2.1
      with ⟨howned, -⟩ | ⟨-, hnone⟩
    · exact hheld (howned.symm.trans hfree)
    · exact hne (applyUpgradeWrites_of_not_patch s name fun w hw =>
        hnone w (mem_of_mem_take hw)).1

theorem terminal_origin {e : HubEvent} (h : StepCase config s e t)
    (he : ∀ name view reads now writes, e ≠ .upgrade name view reads now writes) :
    ∀ u ∈ t.upgrades, u.terminal = true → (∃ v ∈ s.upgrades, v.uid = u.uid ∧ v.terminal = true) ∨
        u.uid ≠ "" ∧ u.uid ∉ s.upgradeUIDs := by
  intro u hu hterminal
  cases h.origin hu with
  | same mem | marked mem | deleted mem => exact .inl ⟨_, mem, rfl, hterminal⟩
  | written => exact absurd rfl (he _ _ _ _ _)
  | created uid fresh => exact .inr ⟨uid, fresh⟩

theorem step {e : HubEvent} (h : Settled s) (howned : Owned s)
    (hok : ∀ name view reads now writes, e = .upgrade name view reads now writes → view = s.stored)
    (hcase : StepCase config s e t) : Settled t := by
  have hpart := hcase.upgradePart
  have horigin := terminal_origin hcase
  cases hcase with
  | upgrade hu =>
    obtain rfl := hok _ _ _ _ _ rfl
    exact h.upgrade howned hu _ _ _
  | _ =>
    exact h.frame howned (hpart fun _ _ _ _ _ h => by cases h)
      (horigin fun _ _ _ _ _ h => by cases h)

end Settled

end HubState

end Mspsql
