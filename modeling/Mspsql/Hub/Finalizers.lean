import Mspsql.Hub.Operations

/-!
# Finalizers and owners

By its finalizer an operation outlives what it owns: the planner of an owned instance fails
when the operation is gone.  A step is clean when every finalizer that it removes belongs to an
operation that owns no instance afterwards.

The deletion of an operation trusts its status, which lags behind when a reconcile stopped
between the write to the instance and the write of the status: a phase that is empty, or final,
then goes with an instance that is owned (`clean_iff`).
-/

namespace Mspsql

open List

variable {writes : List UpgradeWrite} {u : PostgresUpgrade} {view : MultiSitePostgres} {now : Time}
  {x : PostgresRestore} {w : Operations}

/-! ## Upgrade reconciles -/

/-- A reconcile that removes the finalizer first takes its annotations from an instance that
it finds to be its own, or it leaves the instance as it is. -/
inductive Removal (u : PostgresUpgrade) (view : MultiSitePostgres) : List UpgradeWrite → Prop where
  | cleared {kind : PatchKind} {rest : List UpgradeWrite}
      (owned : view.annotations.upgradeUID = u.uid)
      (rest_not_patch : ∀ write ∈ rest, write.isPatch = false) :
      Removal u view (.patchInstance kind view (clearUpgradeAnnotations view) :: rest)
  | kept {writes : List UpgradeWrite} (not_patch : ∀ write ∈ writes, write.isPatch = false)
      (closed : u.deleting = true ∨ u.terminal = true)
      (unaware : view.annotations.upgradeUID = u.uid → u.deleting = true ∧
        u.forceAbandon = false ∧ (u.status.phase = "" ∨ u.terminal = true)) :
      Removal u view writes

theorem removal_of_mem {reads : HubReads} {directives : List DirectiveMap}
    (hmem : .removeFinalizer ∈ reconcileUpgrade reads u (some view) now directives) :
    Removal u view (reconcileUpgrade reads u (some view) now directives) := by
  have hcase := reconcileUpgrade_case reads u view now directives
  generalize reconcileUpgrade reads u (some view) now directives = writes at hmem hcase
  cases hcase with
  | quiet h => cases h _ hmem
  | move _ h =>
    rcases mem_pair.mp hmem with hmem | rfl
    · cases hmem
    · cases h
  | finish => rcases mem_pair.mp hmem with hmem | hmem <;> cases hmem
  | complete | conflict => cases mem_singleton.mp hmem
  | clear _ owned h => exact .cleared owned (not_patch_of_over h)
  | keep closed unaware h => exact .kept (not_patch_of_over h) closed unaware

/-- An upgrade that does not know that it owns the instance, or whose status says that there
is nothing to undo, removes its finalizer and leaves the instance as it is. -/
theorem removal_of_unaware (reads : HubReads) (now : Time) (directives : List DirectiveMap)
    (hfin : u.finalizer = true) (hover : u.deleting = true ∨ u.terminal = true)
    (h : view.annotations.upgradeUID = u.uid → u.deleting = true ∧ u.forceAbandon = false ∧
      (u.status.phase = "" ∨ u.terminal = true)) :
    ∃ before, reconcileUpgrade reads u (some view) now directives =
        before ++ [.removeFinalizer] ∧ ∀ write ∈ before, write.isPatch = false := by
  unfold reconcileUpgrade
  by_cases hdel : u.deleting = true
  · rw [if_pos hdel]
    unfold reconcileUpgradeDeletion
    dsimp only
    rw [if_neg (by simp [hfin])]
    by_cases hforce : u.forceAbandon = true
    · have hnot : view.annotations.upgradeUID ≠ u.uid := by
        intro howned
        rw [(h howned).2.1] at hforce
        cases hforce
      rw [if_pos hforce, if_neg hnot]
      exact ⟨[_], rfl, not_patch_singleton rfl⟩
    · have hover : ¬ view.annotations.upgradeUID = u.uid ∨ u.status.phase = "" ∨
          u.terminal = true := by
        by_cases howned : view.annotations.upgradeUID = u.uid
        · exact .inr (h howned).2.2
        · exact .inl howned
      rw [if_neg hforce, if_pos hover]
      exact ⟨[], rfl, fun _ hwrite => absurd hwrite not_mem_nil⟩
  · rw [if_neg hdel, if_pos (hover.resolve_left hdel), if_pos hfin]
    have hnot : view.annotations.upgradeUID ≠ u.uid := fun howned => hdel (h howned).1
    dsimp only
    rw [if_neg hnot]
    exact ⟨[], rfl, fun _ hwrite => absurd hwrite not_mem_nil⟩

namespace HubState

variable {s : HubState} {u : PostgresUpgrade} {name : String}

/-! ## Upgrades that keep their finalizer -/

theorem finalizer_updateUpgrade (name : String) (hu : u ∈ s.upgrades)
    (hfin : u.finalizer = true) {f : PostgresUpgrade → PostgresUpgrade}
    (hf : u.name = name → (f u).uid = u.uid ∧ (f u).name = u.name ∧ (f u).finalizer = true) :
    ∃ v ∈ (s.updateUpgrade name f).upgrades,
      v.uid = u.uid ∧ v.name = u.name ∧ v.finalizer = true :=
  Lists.exists_update hu ⟨rfl, rfl, hfin⟩ hf fun v hv => by simp [hv.2.2]

theorem finalizer_write (hu : u ∈ s.upgrades) (hfin : u.finalizer = true)
    {write : UpgradeWrite} (hkept : write ≠ .removeFinalizer ∨ u.name ≠ name) :
    ∃ v ∈ (applyUpgradeWrite name s write).upgrades,
      v.uid = u.uid ∧ v.name = u.name ∧ v.finalizer = true := by
  cases write with
  | patchInstance kind base modified =>
    rw [(applyUpgradeWrite_patch s name kind base modified).2.2]
    exact ⟨u, hu, rfl, rfl, hfin⟩
  | setStatus status => exact finalizer_updateUpgrade name hu hfin fun _ => ⟨rfl, rfl, hfin⟩
  | addFinalizer => exact finalizer_updateUpgrade name hu hfin fun _ => ⟨rfl, rfl, rfl⟩
  | removeFinalizer =>
    exact finalizer_updateUpgrade name hu hfin fun hname =>
      absurd hname (hkept.resolve_left fun h => h rfl)
  | createDirective map => exact ⟨u, hu, rfl, rfl, hfin⟩

theorem finalizer_writes (hu : u ∈ s.upgrades) (hfinalizer : u.finalizer = true)
    (hkept : .removeFinalizer ∉ writes ∨ u.name ≠ name) :
    ∃ v ∈ (s.applyUpgradeWrites name writes).upgrades, v.uid = u.uid ∧ v.finalizer = true := by
  induction writes generalizing s u with
  | nil => exact ⟨u, hu, rfl, hfinalizer⟩
  | cons write rest ih =>
    have hfirst : write ≠ .removeFinalizer ∨ u.name ≠ name :=
      hkept.imp (fun h he => h (he ▸ mem_cons_self)) id
    obtain ⟨v, hv, huid, hname, hfin⟩ := finalizer_write hu hfinalizer hfirst
    have hrest : .removeFinalizer ∉ rest ∨ v.name ≠ name :=
      hkept.imp (fun h hmem => h (mem_cons_of_mem _ hmem)) (hname ▸ ·)
    obtain ⟨v', hv', huid', hfin'⟩ := ih hv hfin hrest
    exact ⟨v', hv', huid'.trans huid, hfin'⟩

/-- The finalizer of the upgrade is removed between the two states. -/
def Loses (s t : HubState) (u : PostgresUpgrade) : Prop :=
  u ∈ s.upgrades ∧ u.finalizer = true ∧ ∀ v ∈ t.upgrades, v.uid = u.uid → v.finalizer = false

theorem Loses.reconcile {config : HubConfig} {t : HubState} {e : HubEvent} (hkeyed : Keyed s)
    (hcase : StepCase config s e t) (h : Loses s t u) :
    ∃ name view reads now writes, e = .upgrade name view reads now writes ∧
      s.upgrade? name = some u ∧
      .removeFinalizer ∈
        (reconcileUpgrade (s.readsOf reads) u (some view) now s.directives).take writes ∧
      t = s.applyUpgradeWrites name
        ((reconcileUpgrade (s.readsOf reads) u (some view) now s.directives).take writes) := by
  obtain ⟨hu, hfinalizer, hlost⟩ := h
  have hkept : ∀ {v}, v ∈ t.upgrades → v.uid = u.uid → v.finalizer = true → False := by
    intro v hv huid hfin
    rw [hlost v hv huid] at hfin
    cases hfin
  have hupdated : ∀ {name : String} {f : PostgresUpgrade → PostgresUpgrade},
      (∀ v ∈ (s.updateUpgrade name f).upgrades, v ∈ t.upgrades) →
      (∀ v, (f v).uid = v.uid ∧ (f v).name = v.name ∧ (f v).finalizer = v.finalizer) → False := by
    intro name f hsub hf
    obtain ⟨v, hv, huid, -, hfin⟩ := finalizer_updateUpgrade name hu hfinalizer
      fun _ => ⟨(hf u).1, (hf u).2.1, (hf u).2.2.trans hfinalizer⟩
    exact hkept (hsub v hv) huid hfin
  cases hcase with
  | @issue view reads fails now writes =>
    rw [(applyOutcome_upgrades s view _ writes).1] at hkept
    exact (hkept hu rfl hfinalizer).elim
  | @upgrade name view reads now writes u₀ hu₀ =>
    by_cases hname : u.name = name
    · obtain rfl := eq_of_upgrade? hkeyed.names hu₀ hu hname
      refine ⟨name, view, reads, now, writes, rfl, hu₀, ?_, rfl⟩
      by_contra hmem
      obtain ⟨v, hv, huid, hfin⟩ := finalizer_writes hu hfinalizer (.inl hmem)
      exact hkept hv huid hfin
    · obtain ⟨v, hv, huid, hfin⟩ := finalizer_writes hu hfinalizer (.inr hname)
      exact (hkept hv huid hfin).elim
  | upgradeBackupSucceeded | upgradeBackupFailed | deleteUpgrade =>
    exact (hupdated (fun _ => id) fun _ => ⟨rfl, rfl, rfl⟩).elim
  | createUpgrade => exact (hkept (mem_cons_of_mem _ hu) rfl hfinalizer).elim
  | _ => exact (hkept hu rfl hfinalizer).elim

theorem loses_of_removal (hkeyed : Keyed s) (hfound : s.upgrade? name = some u)
    (hfin : u.finalizer = true) (before : List UpgradeWrite) :
    Loses s (s.applyUpgradeWrites name (before ++ [.removeFinalizer])) u := by
  have hu : u ∈ s.upgrades := mem_of_find?_eq_some hfound
  have hname : u.name = name := by simpa using find?_some hfound
  refine ⟨hu, hfin, fun v hv huid => ?_⟩
  have happend : s.applyUpgradeWrites name (before ++ [.removeFinalizer]) =
      applyUpgradeWrite name (s.applyUpgradeWrites name before) .removeFinalizer :=
    foldl_append
  rw [happend] at hv
  obtain ⟨x, hx, ⟨rfl, -⟩ | ⟨rfl, hother⟩⟩ := mem_updateUpgrade hv
  · rfl
  obtain ⟨y, hy, ⟨hxuid, hxname, -⟩, -⟩ := applyUpgradeWrites_origin hx
  obtain rfl := hkeyed.eq_of_uid hy hu (hxuid.symm.trans huid)
  exact absurd (hxname.trans hname) hother

/-- A reconcile of the upgrade that may give up its finalizer has read that it owns the
instance, when it does, and the status of the upgrade says that there is something to
undo. -/
def Aware (s : HubState) (u : PostgresUpgrade) (view : MultiSitePostgres) : Prop :=
  s.stored.annotations.upgradeUID = u.uid → u.finalizer = true →
    u.deleting = true ∨ u.terminal = true →
    view.annotations.upgradeUID = u.uid ∧
      (u.deleting = true → u.forceAbandon = false → u.status.phase ≠ "" ∧ u.terminal = false)

theorem Aware.cleared {reads : HubReads} {writes : Nat} (h : Aware s u view) (huid : u.uid ≠ "")
    (hfin : u.finalizer = true)
    (hmem : .removeFinalizer ∈ (reconcileUpgrade (s.readsOf reads) u (some view) now
      s.directives).take writes) :
    (s.applyUpgradeWrites name ((reconcileUpgrade (s.readsOf reads) u (some view) now
      s.directives).take writes)).stored.annotations.upgradeUID ≠ u.uid := by
  generalize hlist : reconcileUpgrade (s.readsOf reads) u (some view) now s.directives = list
    at hmem
  have hremoval : Removal u view list :=
    hlist ▸ removal_of_mem (hlist.symm ▸ mem_of_mem_take hmem)
  cases hremoval with
  | @cleared kind rest hview hrest =>
    cases writes with
    | zero => cases hmem
    | succ n =>
      rw [take_succ_cons, applyUpgradeWrites_cons, (applyUpgradeWrites_of_not_patch _ name
        fun write hwrite => hrest write (mem_of_mem_take hwrite)).1,
        (applyUpgradeWrite_patch s name kind view _).1]
      show patchField view.annotations.upgradeUID "" s.stored.annotations.upgradeUID ≠ u.uid
      rw [patchField, if_neg (hview ▸ huid.symm)]
      exact huid.symm
  | kept hnone hover hunaware =>
    rw [(applyUpgradeWrites_of_not_patch s name
      fun write hwrite => hnone write (mem_of_mem_take hwrite)).1]
    intro howned
    obtain ⟨hview, hstatus⟩ := h howned hfin hover
    obtain ⟨hdel, hforce, hleft⟩ := hunaware hview
    obtain ⟨hphase, hopen⟩ := hstatus hdel hforce
    rcases hleft with hempty | hterminal
    · exact hphase hempty
    · rw [hopen] at hterminal
      cases hterminal

theorem loses_of_not_aware (reads : HubReads) (now : Time) (hkeyed : Keyed s)
    (hfound : s.upgrade? name = some u) (h : ¬ Aware s u view) :
    ∃ writes, Loses s (s.applyUpgradeWrites name ((reconcileUpgrade (s.readsOf reads) u
        (some view) now s.directives).take writes)) u ∧
      (s.applyUpgradeWrites name ((reconcileUpgrade (s.readsOf reads) u (some view) now
        s.directives).take writes)).stored.annotations.upgradeUID = u.uid := by
  simp only [Aware, Classical.not_imp, not_and, Bool.not_eq_false] at h
  obtain ⟨howned, hfin, hover, hunaware⟩ := h
  have hstatus : view.annotations.upgradeUID = u.uid → u.deleting = true ∧
      u.forceAbandon = false ∧ (u.status.phase = "" ∨ u.terminal = true) := by
    intro hview
    obtain ⟨hdel, hforce, hleft⟩ := hunaware hview
    exact ⟨hdel, hforce, or_iff_not_imp_left.mpr hleft⟩
  obtain ⟨before, heq, hbefore⟩ :=
    removal_of_unaware (s.readsOf reads) now s.directives hfin hover hstatus
  refine ⟨before.length + 1, ?_⟩
  rw [heq, take_of_length_le (by simp)]
  refine ⟨loses_of_removal hkeyed hfound hfin before, ?_⟩
  rw [(applyUpgradeWrites_of_not_patch s name fun write hwrite => ?_).1]
  · exact howned
  rcases mem_append.mp hwrite with hwrite | hwrite
  · exact hbefore write hwrite
  · exact not_patch_singleton rfl write hwrite

end HubState

/-! ## Restore reconciles -/

def RestoreWrite.own : RestoreWrite → Bool
  | .addFinalizer | .removeFinalizer | .setStatus _ => true
  | _ => false

def Undoing (restore : PostgresRestore) (target : TargetRead) : Prop :=
  restore.phase ≠ "" ∧ restore.phase ≠ "Completed" ∧
    match target with
    | .failed => True
    | .notFound => False
    | .found found => found.annotations.restoreUID = restore.uid

/-- A deletion that removes the finalizer first takes the annotations from the target, or it
leaves the target as it is. -/
inductive RestoreRemoval (restore : PostgresRestore) (target : TargetRead) :
    List RestoreWrite → Prop where
  | cleared {rest : List RestoreWrite} (undoing : Undoing restore target)
      (rest_own : ∀ write ∈ rest, write.own = true) :
      RestoreRemoval restore target (.clearTarget :: rest)
  | kept {before : List RestoreWrite} (before_own : ∀ write ∈ before, write.own = true)
      (unaware : ¬ Undoing restore target) :
      RestoreRemoval restore target (before ++ [.removeFinalizer])

theorem RestoreRemoval.only {restore : PostgresRestore} {target : TargetRead}
    (h : ¬ Undoing restore target) : RestoreRemoval restore target [.removeFinalizer] :=
  @RestoreRemoval.kept restore target [] (fun _ hmem => absurd hmem not_mem_nil) h

theorem own_restoreBlocked (restore : PostgresRestore) (reason message : String) (now : Time) :
    ∀ write ∈ restoreBlocked restore reason message now, write.own = true := by
  intro write hwrite
  rw [mem_writeRestoreStatus hwrite]
  rfl

theorem own_removal {before : List RestoreWrite} (h : ∀ write ∈ before, write.own = true) :
    ∀ write ∈ before ++ [.removeFinalizer], write.own = true := by
  intro write hwrite
  rcases mem_append.mp hwrite with hwrite | hwrite
  · exact h write hwrite
  · rw [mem_singleton.mp hwrite]
    rfl

theorem removeFinalizer_not_mem_restoreBlocked (restore : PostgresRestore)
    (reason message : String) (now : Time) :
    .removeFinalizer ∉ restoreBlocked restore reason message now :=
  fun hmem => nomatch mem_writeRestoreStatus hmem

/-- The deletion of a restore with a finalizer removes it in one of two ways, or keeps it
while the restore is being undone. -/
theorem reconcileRestoreDeletion_cases (reads : RestoreReads) {restore : PostgresRestore}
    (now : Time) (hfin : restore.finalizer = true) :
    RestoreRemoval restore reads.target (reconcileRestoreDeletion reads restore now) ∨
      Undoing restore reads.target ∧
        .removeFinalizer ∉ reconcileRestoreDeletion reads restore now := by
  unfold reconcileRestoreDeletion
  rw [if_neg (by simp [hfin])]
  by_cases hphase : restore.phase = "Completed" ∨ restore.phase = ""
  · rw [if_pos hphase]
    exact .inl (.only fun h => hphase.elim h.2.1 h.1)
  rw [if_neg hphase]
  obtain ⟨hcompleted, hempty⟩ := not_or.mp hphase
  cases reads.target with
  | notFound => exact .inl (.only fun h => h.2.2)
  | failed => exact .inr ⟨⟨hempty, hcompleted, trivial⟩, not_mem_nil⟩
  | found target =>
    dsimp only
    by_cases howned : target.annotations.restoreUID = restore.uid
    · by_cases hforce : restore.forceAbandon = true
      · rw [if_pos hforce, if_pos howned]
        exact .inl (.cleared ⟨hempty, hcompleted, howned⟩
          (own_removal (own_restoreBlocked _ _ _ _)))
      · rw [if_neg hforce, if_neg (not_not.mpr howned)]
        refine .inr ⟨⟨hempty, hcompleted, howned⟩, fun hmem => ?_⟩
        rcases mem_append.mp hmem with hmem | hmem
        · split at hmem
          · cases hmem
          · cases mem_singleton.mp hmem
        · exact removeFinalizer_not_mem_restoreBlocked _ _ _ _ hmem
    · have hunaware : ¬ Undoing restore (.found target) := fun h => howned h.2.2
      by_cases hforce : restore.forceAbandon = true
      · rw [if_pos hforce, if_neg howned]
        exact .inl (.kept (own_restoreBlocked _ _ _ _) hunaware)
      · rw [if_neg hforce, if_pos howned]
        exact .inl (.only hunaware)

namespace Operations

/-! ## Restores that keep their finalizer -/

section Restores

variable {w : Operations} {r restore : PostgresRestore} {name uid : String}

theorem finalizer_updateRestore (name : String) (hr : r ∈ w.restores)
    (hfin : r.finalizer = true) {f : PostgresRestore → PostgresRestore}
    (hf : r.name = name → (f r).uid = r.uid ∧ (f r).name = r.name ∧ (f r).finalizer = true) :
    ∃ v ∈ (w.updateRestore name f).restores,
      v.uid = r.uid ∧ v.name = r.name ∧ v.finalizer = true :=
  Lists.exists_update hr ⟨rfl, rfl, hfin⟩ hf fun v hv => by simp [hv.2.2]

theorem finalizer_restoreWrite {v : Operations} (hr : r ∈ w.restores)
    (hfin : r.finalizer = true) {write : RestoreWrite}
    (hkept : write ≠ .removeFinalizer ∨ r.name ≠ restore.name)
    (h : applyRestoreWrite restore uid w write = some v) :
    ∃ x ∈ v.restores, x.uid = r.uid ∧ x.name = r.name ∧ x.finalizer = true := by
  cases write with
  | addFinalizer =>
    exact Option.some.inj h ▸ finalizer_updateRestore _ hr hfin fun _ => ⟨rfl, rfl, rfl⟩
  | removeFinalizer =>
    exact Option.some.inj h ▸ finalizer_updateRestore _ hr hfin fun hname =>
      absurd hname (hkept.resolve_left fun h => h rfl)
  | setStatus updated =>
    exact Option.some.inj h ▸ finalizer_updateRestore _ hr hfin fun _ => ⟨rfl, rfl, hfin⟩
  | createTarget target =>
    rw [applyRestoreWrite] at h
    split at h
    · cases h
    · exact Option.some.inj h ▸ ⟨r, hr, rfl, rfl, hfin⟩
  | setTargetPhase | clearTarget =>
    rw [applyRestoreWrite] at h
    split at h
    · exact Option.some.inj h ▸ ⟨r, hr, rfl, rfl, hfin⟩
    · cases h
  | deleteTarget | drillEvidence =>
    exact Option.some.inj h ▸ ⟨r, hr, rfl, rfl, hfin⟩

theorem finalizer_restoreWrites (hr : r ∈ w.restores) (hfinalizer : r.finalizer = true)
    {writes : List RestoreWrite} (hkept : .removeFinalizer ∉ writes ∨ r.name ≠ restore.name) :
    ∃ x ∈ (applyRestoreWrites restore uid w writes).restores,
      x.uid = r.uid ∧ x.finalizer = true := by
  induction writes generalizing w r with
  | nil => exact ⟨r, hr, rfl, hfinalizer⟩
  | cons write rest ih =>
    rw [applyRestoreWrites]
    split
    · rename_i hv
      have hfirst : write ≠ .removeFinalizer ∨ r.name ≠ restore.name :=
        hkept.imp (fun h he => h (he ▸ mem_cons_self)) id
      obtain ⟨x, hx, huid, hname, hfin⟩ := finalizer_restoreWrite hr hfinalizer hfirst hv
      have hrest : .removeFinalizer ∉ rest ∨ x.name ≠ restore.name :=
        hkept.imp (fun h hmem => h (mem_cons_of_mem _ hmem)) (hname ▸ ·)
      obtain ⟨y, hy, huid', hfin'⟩ := ih hx hfin hrest
      exact ⟨y, hy, huid'.trans huid, hfin'⟩
    · exact ⟨r, hr, rfl, hfinalizer⟩

theorem applyRestoreWrite_own (restore : PostgresRestore) (uid : String) (w : Operations)
    {write : RestoreWrite} (h : write.own = true) :
    ∃ v, applyRestoreWrite restore uid w write = some v ∧ v.targets = w.targets ∧
      v.restoreKeys.Sublist w.restoreKeys := by
  cases write with
  | addFinalizer | removeFinalizer | setStatus =>
    exact ⟨_, rfl, rfl, updateRestore_keys fun _ => ⟨rfl, rfl, rfl⟩⟩
  | _ => cases h

theorem applyRestoreWrites_own {writes : List RestoreWrite}
    (h : ∀ write ∈ writes, write.own = true) :
    (applyRestoreWrites restore uid w writes).targets = w.targets := by
  induction writes generalizing w with
  | nil => rfl
  | cons write rest ih =>
    obtain ⟨hwrite, hrest⟩ := forall_mem_cons.mp h
    obtain ⟨v, hv, htargets, -⟩ := applyRestoreWrite_own restore uid w hwrite
    rw [applyRestoreWrites, hv, ← htargets]
    exact ih hrest

theorem applyRestoreWrites_removal (restore : PostgresRestore) (uid : String) (w : Operations)
    {before : List RestoreWrite} (h : ∀ write ∈ before, write.own = true) :
    ∃ v : Operations, v.restoreKeys.Sublist w.restoreKeys ∧
      applyRestoreWrites restore uid w (before ++ [.removeFinalizer]) =
        v.updateRestore restore.name fun r => { r with finalizer := false } := by
  induction before generalizing w with
  | nil => exact ⟨w, List.Sublist.refl _, rfl⟩
  | cons write rest ih =>
    obtain ⟨hwrite, hrest⟩ := forall_mem_cons.mp h
    obtain ⟨x, hx, -, hkeys⟩ := applyRestoreWrite_own restore uid w hwrite
    obtain ⟨v, hv, heq⟩ := ih (w := x) hrest
    refine ⟨v, hv.trans hkeys, ?_⟩
    rw [cons_append, applyRestoreWrites, hx]
    exact heq

end Restores

/-! ## Clean steps -/

/-- The finalizer of the restore is removed between the two states. -/
def Loses (w v : Operations) (r : PostgresRestore) : Prop :=
  r ∈ w.restores ∧ r.finalizer = true ∧ ∀ x ∈ v.restores, x.uid = r.uid → x.finalizer = false

def Carries (i : MultiSitePostgres) (r : PostgresRestore) : Prop :=
  i.annotations.restoreUID = r.uid ∧ i.annotations.restorePhase ≠ .completed

/-- No finalizer is removed from the owner of an instance. -/
structure Clean (w v : Operations) : Prop where
  upgrades : ∀ u, HubState.Loses w.hub v.hub u → ∀ i ∈ v.instances, i.annotations.upgradeUID ≠ u.uid
  restores : ∀ r, Loses w v r → r.deleting = true → ∀ i ∈ v.instances, ¬ Carries i r

def AwareRestore (w : Operations) (r : PostgresRestore) (target : TargetRead) : Prop :=
  (∃ i ∈ w.targets, Carries i r) → r.finalizer = true → r.deleting = true → Undoing r target

/-- The operation that is reconciled knows what it owns. -/
def Guarded (w : Operations) : OperationsEvent → Prop
  | .hub (.upgrade name view _ _ _) => ∀ u, w.hub.upgrade? name = some u → w.hub.Aware u view
  | .restore name reads _ _ _ => ∀ r, w.restore? name = some r → w.AwareRestore r reads.target
  | _ => True

section Clean

variable {config : OperationsConfig} {w v : Operations} {e : OperationsEvent}
  {r : PostgresRestore}

theorem Tidy.eq_of_uid (h : Tidy w) {y : PostgresRestore} (hx : x ∈ w.restores)
    (hy : y ∈ w.restores) (huid : x.uid = y.uid) : x = y := by
  have hmap : (w.restores.map (·.uid)).Nodup := by
    have hids := h.restoreIdentities
    rw [restoreKeys, map_map] at hids
    exact hids
  exact inj_on_of_nodup_map hmap hx hy huid

theorem Tidy.eq_of_restore? (h : Tidy w) {name : String} {y : PostgresRestore}
    (hx : w.restore? name = some x) (hy : y ∈ w.restores) (hname : y.name = name) : y = x := by
  have hmap : (w.restores.map (·.name)).Nodup := by
    have hnames := h.restoreNames
    rw [restoreKeys, map_map] at hnames
    exact hnames
  have hxname : x.name = name := by simpa using find?_some hx
  exact inj_on_of_nodup_map hmap hy (mem_of_find?_eq_some hx) (hname.trans hxname.symm)

theorem Tidy.uid_ne (h : Tidy w) (hr : r ∈ w.restores) : r.uid ≠ "" :=
  (h.known _ (mem_restoreKeys hr)).1

theorem Tidy.name_of_carries (h : Tidy w) (hr : r ∈ w.restores) {i : MultiSitePostgres}
    (hi : i ∈ w.targets) (huid : i.annotations.restoreUID = r.uid) :
    i.name = r.targetInstanceRef :=
  h.owned i hi _ (mem_restoreKeys hr) huid

theorem not_loses_of_mem (hx : x ∈ v.restores) (huid : x.uid = r.uid)
    (hfin : x.finalizer = true) : ¬ Loses w v r := by
  rintro ⟨-, -, hlost⟩
  rw [hlost x hx huid] at hfin
  cases hfin

theorem Loses.reconcile (h : Tidy w) (hcase : StepCase config w e v) (hlost : Loses w v r) :
    ∃ name reads now uid writes, e = .restore name reads now uid writes ∧ w.restore? name = some r ∧
      .removeFinalizer ∈ (reconcileRestore config.restores reads r now).take writes ∧
      v = applyRestoreWrites r uid w
        ((reconcileRestore config.restores reads r now).take writes) := by
  have hmem := hlost.1
  have hfinalizer := hlost.2.1
  cases hcase with
  | hub => exact absurd hlost (not_loses_of_mem hmem rfl hfinalizer)
  | @restore name reads now uid writes restore found =>
    by_cases hname : r.name = restore.name
    · have hrname : restore.name = name := by simpa using find?_some found
      obtain rfl := h.eq_of_restore? found hmem (hname.trans hrname)
      refine ⟨name, reads, now, uid, writes, rfl, found, ?_, rfl⟩
      by_contra hkept
      obtain ⟨x, hx, huid, hfin⟩ := finalizer_restoreWrites hmem hfinalizer (.inl hkept)
      exact not_loses_of_mem hx huid hfin hlost
    · obtain ⟨x, hx, huid, hfin⟩ := finalizer_restoreWrites hmem hfinalizer (.inr hname)
      exact absurd hlost (not_loses_of_mem hx huid hfin)
  | createRestore =>
    exact absurd hlost (not_loses_of_mem (mem_cons_of_mem _ hmem) rfl hfinalizer)
  | @deleteRestore name =>
    obtain ⟨x, hx, huid, -, hfin⟩ := finalizer_updateRestore name hmem hfinalizer
      (f := fun r => { r with deleting := true, forceAbandon := _ }) fun _ => ⟨rfl, rfl, hfinalizer⟩
    exact absurd hlost (not_loses_of_mem hx huid hfin)
  | createInstance | recordStatus | dropInstance =>
    exact absurd hlost (not_loses_of_mem hmem rfl hfinalizer)

theorem AwareRestore.cleared (h : Tidy w) (hr : r ∈ w.restores) {reads : RestoreReads}
    {uid : String} {writes : Nat} (haware : w.AwareRestore r reads.target)
    (hfin : r.finalizer = true) (hdel : r.deleting = true)
    (hmem : .removeFinalizer ∈ (reconcileRestore config.restores reads r now).take writes)
    (hlost : Loses w (applyRestoreWrites r uid w ((reconcileRestore config.restores reads r
      now).take writes)) r) :
    ∀ i ∈ (applyRestoreWrites r uid w
      ((reconcileRestore config.restores reads r now).take writes)).targets, ¬ Carries i r := by
  rw [reconcileRestore, if_pos hdel] at hmem hlost ⊢
  rcases reconcileRestoreDeletion_cases reads now hfin with
    hremoval | ⟨-, hkept⟩
  · generalize reconcileRestoreDeletion reads r now = list at *
    cases hremoval with
    | @cleared rest hundoing hrest =>
      cases writes with
      | zero => cases hmem
      | succ n =>
        rw [take_succ_cons, applyRestoreWrites, applyRestoreWrite] at hlost ⊢
        by_cases htarget : w.hasTarget r.targetInstanceRef = true
        · rw [if_pos htarget]
          rw [applyRestoreWrites_own fun write hwrite =>
            hrest write (mem_of_mem_take hwrite)]
          rintro i hi ⟨huid, -⟩
          obtain ⟨j, hj, rfl⟩ := mem_map.mp hi
          by_cases hname : j.name = r.targetInstanceRef
          · rw [if_pos hname] at huid
            exact h.uid_ne hr huid.symm
          · rw [if_neg hname] at huid
            exact hname (h.name_of_carries hr hj huid)
        · rw [if_neg htarget] at hlost
          exact absurd hlost (not_loses_of_mem hr rfl hfin)
    | @kept before hbefore hunaware =>
      rw [applyRestoreWrites_own fun write hwrite =>
        own_removal hbefore write (mem_of_mem_take hwrite)]
      exact fun i hi hcarries => hunaware (haware ⟨i, hi, hcarries⟩ hfin hdel)
  · exact absurd (mem_of_mem_take hmem) hkept

/-- A deletion of a restore that is not aware removes the finalizer of the owner. -/
theorem loses_of_not_awareRestore (h : Tidy w) {name : String} (hfound : w.restore? name = some r)
    (reads : RestoreReads) (now : Time) (uid : String) (hnot : ¬ w.AwareRestore r reads.target) :
    ∃ writes, Loses w (applyRestoreWrites r uid w
        ((reconcileRestore config.restores reads r now).take writes)) r ∧ r.deleting = true ∧
      ∃ i ∈ (applyRestoreWrites r uid w
        ((reconcileRestore config.restores reads r now).take writes)).targets, Carries i r := by
  simp only [AwareRestore, Classical.not_imp] at hnot
  obtain ⟨⟨i, hi, hcarries⟩, hfin, hdel, hunaware⟩ := hnot
  have hr : r ∈ w.restores := mem_of_find?_eq_some hfound
  simp only [reconcileRestore, if_pos hdel]
  rcases reconcileRestoreDeletion_cases reads now hfin with hremoval | ⟨hundoing, -⟩
  · generalize reconcileRestoreDeletion reads r now = list at hremoval
    cases hremoval with
    | cleared hundoing => exact absurd hundoing hunaware
    | @kept before hbefore =>
      obtain ⟨x, hkeys, hx⟩ := applyRestoreWrites_removal r uid w hbefore
      refine ⟨before.length + 1, ?_⟩
      rw [take_of_length_le (by simp)]
      refine ⟨⟨hr, hfin, fun y hy huid => ?_⟩, hdel, i, ?_, hcarries⟩
      · rw [hx] at hy
        obtain ⟨z, hz, ⟨rfl, -⟩ | ⟨rfl, hother⟩⟩ := mem_updateRestore hy
        · rfl
        obtain ⟨z', hz', hkey⟩ := mem_map.mp (hkeys.subset (mem_map_of_mem hz))
        simp only [Prod.mk.injEq] at hkey
        obtain ⟨hzname, hzuid, -⟩ := hkey
        obtain rfl := h.eq_of_uid hz' hr (hzuid.trans huid)
        exact absurd hzname.symm hother
      · rw [applyRestoreWrites_own (own_removal hbefore)]
        exact hi
  · exact absurd hundoing hunaware

theorem guarded_stoppedAfter (writes : Nat) : Guarded w (e.stoppedAfter writes) ↔ Guarded w e := by
  cases e with
  | hub event => cases event <;> exact Iff.rfl
  | _ => exact Iff.rfl

theorem not_loses_self {s : HubState} : ¬ HubState.Loses s s u := by
  rintro ⟨hu, hfin, hlost⟩
  rw [hlost u hu rfl] at hfin
  cases hfin

/-- Every finalizer that a guarded step removes belongs to an operation that owns nothing. -/
theorem clean_of_guarded (h : Tidy w) (hguarded : Guarded w e) (hcase : StepCase config w e v) :
    Clean w v := by
  have hafter : Tidy v := h.step hcase
  refine ⟨fun u hlost => ?_, fun r hlost hdel => ?_⟩
  · have huid : u.uid ≠ "" := (h.keyed.known _ (mem_map_of_mem hlost.1)).2.1
    have hstored : v.hub.stored.annotations.upgradeUID ≠ u.uid := by
      cases hcase with
      | hub hkept hstep =>
        obtain ⟨name, view, reads, now, writes, rfl, hfound, hmem, rfl⟩ :=
          hlost.reconcile h.keyed hstep
        exact (hguarded u hfound).cleared huid hlost.2.1 hmem
      | restore found =>
        have howner := mem_map_of_mem (f := fun r : PostgresRestore =>
          (r.name, r.uid, r.targetInstanceRef)) (mem_of_find?_eq_some found)
        rw [(Follows.writes howner fun _ => mem_of_mem_take).hub] at hlost
        exact absurd hlost not_loses_self
      | _ => exact absurd hlost not_loses_self
    intro i hi
    rcases mem_cons.mp hi with rfl | hi
    · exact hstored
    · rw [hafter.notUpgraded i hi]
      exact huid.symm
  · obtain ⟨name, reads, now, uid, writes, rfl, hfound, hmem, rfl⟩ := hlost.reconcile h hcase
    intro i hi
    rcases mem_cons.mp hi with rfl | hi
    · rintro ⟨huid, -⟩
      exact h.uid_ne hlost.1 (huid.symm.trans hafter.hubRestore)
    · exact (hguarded r hfound).cleared h hlost.1 hlost.2.1 hdel hmem hlost i hi

open Machine

/-- In every run: a reconcile is clean wherever it stops exactly when the operation that it
reconciles knows what it owns. -/
theorem clean_iff {t : Operations} (h : Reach (step config) (Initial config) anyStep w)
    (hstep : w.step config e = some t) :
    (∀ writes v, w.step config (e.stoppedAfter writes) = some v → Clean w v) ↔ Guarded w e := by
  have htidy := Tidy.of_reach h
  refine ⟨fun hclean => ?_, fun hguarded writes v hv =>
    clean_of_guarded htidy ((guarded_stoppedAfter writes).mpr hguarded) (step_case hv)⟩
  cases e with
  | hub event =>
    cases event with
    | upgrade name view reads now writes =>
      intro u hfound
      by_contra hnot
      obtain ⟨n, hlost, howned⟩ := HubState.loses_of_not_aware reads now htidy.keyed hfound hnot
      have hview : view ∈ w.hub.versions := by
        cases step_case hstep with
        | hub hkept hcase =>
          cases hcase with
          | upgrade found hview => exact hview
      have hv : w.step config (.hub (.upgrade name view reads now n)) = some { w with
          hub := w.hub.applyUpgradeWrites name ((reconcileUpgrade (w.hub.readsOf reads) u
            (some view) now w.hub.directives).take n) } := by
        simp only [step, HubState.step, hfound, if_pos hview]
        rfl
      exact (hclean n _ hv).upgrades u hlost _ mem_cons_self howned
    | _ => trivial
  | restore name reads now uid writes =>
    intro r hfound
    by_contra hnot
    obtain ⟨n, hlost, hdel, i, hi, hcarries⟩ :=
      loses_of_not_awareRestore htidy hfound reads now uid hnot
    have hread : w.mayRead r.targetInstanceRef reads.target := by
      cases step_case hstep with
      | restore found hread =>
        rw [hfound] at found
        exact Option.some.inj found ▸ hread
    have hv : w.step config (.restore name reads now uid n) = some (applyRestoreWrites r uid w
        ((reconcileRestore config.restores reads r now).take n)) := by
      simp only [step, hfound, if_pos hread]
    exact (hclean n _ hv).restores r hlost hdel i (mem_cons_of_mem _ hi) hcarries
  | _ => trivial

end Clean

/-! ## Runs -/

/-- The step takes the finalizer from the owner of the instance, or from a deleted restore
that carries a target. -/
def Dangles (w v : Operations) : Prop :=
  (∃ u ∈ w.hub.upgrades, HubState.Loses w.hub v.hub u ∧
      v.hub.stored.annotations.upgradeUID = u.uid) ∨
    ∃ r ∈ w.restores, Loses w v r ∧ r.deleting = true ∧ ∃ i ∈ v.targets, Carries i r

instance (s t : HubState) (u : PostgresUpgrade) : Decidable (HubState.Loses s t u) :=
  inferInstanceAs (Decidable (u ∈ s.upgrades ∧ u.finalizer = true ∧
    ∀ v ∈ t.upgrades, v.uid = u.uid → v.finalizer = false))

instance (w v : Operations) (r : PostgresRestore) : Decidable (Loses w v r) :=
  inferInstanceAs (Decidable (r ∈ w.restores ∧ r.finalizer = true ∧
    ∀ x ∈ v.restores, x.uid = r.uid → x.finalizer = false))

instance (i : MultiSitePostgres) (r : PostgresRestore) : Decidable (Carries i r) :=
  inferInstanceAs (Decidable (_ ∧ _))

instance (w v : Operations) : Decidable (Dangles w v) := inferInstanceAs (Decidable (_ ∨ _))

theorem Dangles.not_clean {v : Operations} (h : Dangles w v) : ¬ Clean w v := by
  intro hclean
  rcases h with ⟨u, -, hlost, howned⟩ | ⟨r, -, hlost, hdel, i, hi, hcarries⟩
  · exact hclean.upgrades u hlost _ mem_cons_self howned
  · exact hclean.restores r hlost hdel i (mem_cons_of_mem _ hi) hcarries

def sampleConfig : OperationsConfig where
  hub := Sample.hub
  restores := { labelProblems := fun _ => [], formatTime := fun _ => "" }

open Sample

def fresh : Operations := { hub := created trio }

theorem fresh_initial : Initial sampleConfig fresh :=
  ⟨trio_initial, rfl, rfl, rfl, rfl⟩

open Machine

def after (script : List (Operations → OperationsEvent)) : Operations :=
  reached (step sampleConfig) anyStep fresh script

def hubEvents (events : List (HubState → HubEvent)) : List (Operations → OperationsEvent) :=
  events.map fun event w => .hub (event w.hub)

def reconcileUpTo (writes : Nat) (w : Operations) : OperationsEvent :=
  .hub (.upgrade minorUpgrade.name w.hub.stored reads 0 writes)

def requested : List (Operations → OperationsEvent) :=
  hubEvents (rollOut reads ++ [evidence] ++ reconciledWith ++
    [fun _ => .createUpgrade minorUpgrade]) ++ [reconcileUpTo 1]

/-- The upgrade takes the instance, and the controller stops before the status is written;
then the upgrade is deleted. -/
def interrupted : Operations :=
  after (requested ++ [reconcileUpTo 1, fun _ => .hub (.deleteUpgrade minorUpgrade.name false)])

def DanglesNext (next : Operations → OperationsEvent) (w : Operations) : Prop :=
  (w.step sampleConfig (next w)).any (fun v => decide (Dangles w v)) = true

instance (next : Operations → OperationsEvent) : DecidablePred (DanglesNext next) := fun _ =>
  inferInstanceAs (Decidable (_ = true))

theorem interrupted_reach : Reach (step sampleConfig) (Initial sampleConfig) anyStep interrupted ∧
      DanglesNext (reconcileUpTo 1) interrupted := by
  unfold interrupted after
  exact played (P := DanglesNext (reconcileUpTo 1)) fresh_initial (by decide +kernel)

def recoverable : MultiSitePostgres :=
  { orders with status := {
      conditions := [reported "Ready" "", reported "RecoveryWindowAvailable" ""]
      recoveryWindowStart := some 0
      restoreDrillLastVerifiedAt := some 0 } }

def restoreUpTo (target : TargetRead) (writes : Nat) (_ : Operations) : OperationsEvent :=
  .restore ordersRestore.name { source := .ok recoverable, target := target } 0
    "restored-uid" writes

/-- The restore creates its target, and the controller stops before the status is written;
then the restore is deleted. -/
def halfCreated : Operations :=
  after [fun _ => .createRestore ordersRestore, restoreUpTo .notFound 1,
    restoreUpTo .notFound 1, fun _ => .deleteRestore ordersRestore.name false]

theorem halfCreated_reach : Reach (step sampleConfig) (Initial sampleConfig) anyStep halfCreated ∧
      DanglesNext (restoreUpTo .failed 1) halfCreated := by
  unfold halfCreated after
  exact played fresh_initial (by decide +kernel)

theorem DanglesNext.step {next : Operations → OperationsEvent} (h : DanglesNext next w) :
    ∃ v, w.step sampleConfig (next w) = some v ∧ ¬ Clean w v := by
  obtain ⟨v, hv, hdangles⟩ := (Option.any_eq_true _ _).mp h
  exact ⟨v, hv, (of_decide_eq_true hdangles).not_clean⟩

/-- Neither an upgrade nor a restore keeps its finalizer until it has given its instance
back. -/
theorem interrupted_dangles :
    (Reach (step sampleConfig) (Initial sampleConfig) anyStep interrupted ∧
      ∃ v, interrupted.step sampleConfig (reconcileUpTo 1 interrupted) = some v ∧
        ¬ Clean interrupted v) ∧
    (Reach (step sampleConfig) (Initial sampleConfig) anyStep halfCreated ∧
      ∃ v, halfCreated.step sampleConfig (restoreUpTo .failed 1 halfCreated) = some v ∧
        ¬ Clean halfCreated v) :=
  ⟨⟨interrupted_reach.1, interrupted_reach.2.step⟩, ⟨halfCreated_reach.1, halfCreated_reach.2.step⟩⟩

/-- The upgrade takes the instance and is then deleted with the approval to abandon it. -/
def abandoned : Operations :=
  after (requested ++ [reconcileUpTo 2, fun _ => .hub (.deleteUpgrade minorUpgrade.name true)])

def AbandonedNext (w : Operations) : Prop :=
  (w.hub.upgrade? minorUpgrade.name).any (fun u => u.forceAbandon ∧
      w.hub.stored.annotations.upgradeUID = u.uid) = true ∧
    (w.step sampleConfig (reconcileUpTo 3 w)).any (fun v =>
      decide (∃ u ∈ w.hub.upgrades, HubState.Loses w.hub v.hub u)) = true

instance : DecidablePred AbandonedNext := fun _ => inferInstanceAs (Decidable (_ ∧ _))

theorem abandoned_reach : Reach (step sampleConfig) (Initial sampleConfig) anyStep abandoned ∧
      AbandonedNext abandoned := by
  unfold abandoned after
  exact played (P := AbandonedNext) fresh_initial (by decide +kernel)

theorem AbandonedNext.guarded (h : AbandonedNext w) (writes : Nat) :
    Guarded w (reconcileUpTo writes w) := by
  intro u hfound howned _ _
  obtain ⟨u', hfound', hforce⟩ := (Option.any_eq_true _ _).mp h.1
  rw [hfound] at hfound'
  cases hfound'
  have hforce : u.forceAbandon = true := (of_decide_eq_true hforce).1
  refine ⟨howned, fun _ hnot => ?_⟩
  rw [hforce] at hnot
  cases hnot

theorem abandoned_clean : ∃ v, abandoned.step sampleConfig (reconcileUpTo 3 abandoned) = some v ∧
      (∃ u ∈ abandoned.hub.upgrades, HubState.Loses abandoned.hub v.hub u) ∧
      Clean abandoned v := by
  obtain ⟨v, hv, hlost⟩ := (Option.any_eq_true _ _).mp abandoned_reach.2.2
  exact ⟨v, hv, of_decide_eq_true hlost,
    (clean_iff abandoned_reach.1 hv).mpr (abandoned_reach.2.guarded 3) 3 v hv⟩

/-- Each restore holds at most one instance of the namespace, the target it names.  No instance is
created with annotations, so that none but a target can claim to be held. -/
def HeldApart (w : Operations) : Prop :=
  ∀ r ∈ w.restores, ∀ i ∈ w.instances, i.annotations.restoreUID = r.uid →
    i.name = r.targetInstanceRef ∧ ∀ j ∈ w.instances, j.annotations.restoreUID = r.uid → j = i

theorem heldApart_of_reach {c : OperationsConfig} (h : Reach (step c) (Initial c) anyStep w) :
    HeldApart w := by
  have htidy := Tidy.of_reach h
  intro r hr
  have htarget : ∀ i ∈ w.instances, i.annotations.restoreUID = r.uid → i ∈ w.targets := by
    intro i hi hheld
    rcases mem_cons.mp hi with rfl | hi
    · exact absurd (hheld.symm.trans htidy.hubRestore) (htidy.known _ (mem_restoreKeys hr)).1
    · exact hi
  have hname := fun i hi hheld => htidy.owned i (htarget i hi hheld) _ (mem_restoreKeys hr) hheld
  refine fun i hi hheld => ⟨hname i hi hheld, fun j hj hj' => ?_⟩
  exact inj_on_of_nodup_map htidy.targetNames (htarget j hj hj') (htarget i hi hheld)
    ((hname j hj hj').trans (hname i hi hheld).symm)

def copyRestore : PostgresRestore :=
  { ordersRestore with
    name := "orders-copy"
    uid := "copy-uid"
    targetInstanceRef := "orders-copied"
    targetBackup := some { backup with repository := { backup.repository with
      pathPrefix := "orders-copied"
      credentialVaultRef := { mount := "secret", path := "postgres/orders-copied" } } } }

/-- Two restores of one source create their targets. -/
def bothCreated : Operations :=
  let copied (_ : Operations) : OperationsEvent := .restore copyRestore.name
    { source := .ok recoverable, target := .notFound } 0 "copied-uid" 1
  after [fun _ => .createRestore ordersRestore, fun _ => .createRestore copyRestore,
    restoreUpTo .notFound 1, restoreUpTo .notFound 1, copied, copied]

def BothHeld (w : Operations) : Prop :=
  w.restores.map (·.uid) = [copyRestore.uid, ordersRestore.uid] ∧
    w.instances.map (·.annotations.restoreUID) = ["", copyRestore.uid, ordersRestore.uid]
deriving Decidable

theorem bothCreated_reach : Reach (step sampleConfig) (Initial sampleConfig) anyStep bothCreated ∧
      BothHeld bothCreated := by
  unfold bothCreated after
  exact played fresh_initial (by decide +kernel)

theorem bothCreated_heldApart : BothHeld bothCreated ∧ HeldApart bothCreated :=
  ⟨bothCreated_reach.2, heldApart_of_reach bothCreated_reach.1⟩

end Operations

end Mspsql
