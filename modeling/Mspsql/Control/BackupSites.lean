import Mspsql.Control.Delivery
import Mspsql.Sample

/-!
# The site that executes a backup

A backup directive goes to the site of the current backup source, and the site is chosen
anew on every stream.  An agent remembers the operations it has finished, but only its own.
When the standby moves to another site while the directive is still trusted, that site is
sent the operation too and executes it again (`moved_twoSites`).

The machine adds to the hub one stream for each connected site.  An agent handles a directive
in one step: it replays the stored result, or executes the backup and may stop before storing.
-/

namespace Mspsql

open List

structure BackupSites where
  hub : HubState
  streams : List SiteStream := []
  /-- Backups an agent was sent on its stream and has not handled. -/
  inbox : List SiteOperation := []
  /-- The operations for which an agent holds a terminal result. -/
  finished : List SiteOperation := []
  /-- Every backup that was sent. -/
  sends : List SiteOperation := []
  /-- Every backup that was executed. -/
  executed : List SiteOperation := []
deriving DecidableEq

inductive BackupSitesEvent where
  | hub (event : HubEvent)
  | connect (registration : String)
  | disconnect (registration : String)
  /-- The server looks for directives; it reads the instance as it is or was. -/
  | sync (registration : String) (view : MultiSitePostgres) (declared : List DeclaredObject)
      (limit : Nat)
  /-- The agent handles a backup; `stores` tells whether it comes to store the result. -/
  | handle (operation : SiteOperation) (stores : Bool)

namespace BackupSites

variable {w : BackupSites}

def payloads (w : BackupSites) (registration : String) (view : MultiSitePostgres)
    (declared : List DeclaredObject) (sent : List String) (limit : Nat) :
    List DirectivePayload :=
  DirectiveReads.sendDirectives ⟨view, w.hub.upgrades, declared⟩ registration w.hub.directives
    sent limit

def backups (registration : String) (payloads : List DirectivePayload) : List SiteOperation :=
  (payloads.filter (·.type = "Backup")).map fun p => ⟨registration, p.operationUID⟩

def streamsBut (w : BackupSites) (registration : String) : List SiteStream :=
  w.streams.filter (·.registration ≠ registration)

def step (config : HubConfig) (w : BackupSites) : BackupSitesEvent → Option BackupSites
  | .hub event => (w.hub.step config event).map ({ w with hub := · })
  | .connect registration =>
    some { w with streams := ⟨registration, []⟩ :: w.streamsBut registration }
  | .disconnect registration =>
    some { w with
      streams := w.streamsBut registration
      inbox := w.inbox.filter (·.registration ≠ registration) }
  | .sync registration view declared limit =>
    if view ∈ w.hub.versions then
      (w.streams.find? (·.registration = registration)).map fun stream =>
        let messages := w.payloads registration view declared stream.sent limit
        { w with
          streams := ⟨registration, messages.map (·.operationUID) ++ stream.sent⟩ ::
            w.streamsBut registration
          inbox := backups registration messages ++ w.inbox
          sends := backups registration messages ++ w.sends }
    else none
  | .handle operation stores =>
    if operation ∈ w.inbox then
      let taken := { w with inbox := w.inbox.erase operation }
      if operation ∈ w.finished then some taken
      else some { taken with
        executed := operation :: w.executed
        finished := if stores then operation :: w.finished else w.finished }
    else none

def Initial (config : HubConfig) (w : BackupSites) : Prop :=
  HubState.Initial config w.hub ∧ w.streams = [] ∧ w.inbox = [] ∧ w.finished = [] ∧
    w.sends = [] ∧ w.executed = []

def OneSite (w : BackupSites) : Prop :=
  ∀ a ∈ w.executed, ∀ b ∈ w.executed, a.operationUID = b.operationUID →
    a.registration = b.registration
deriving Decidable

def outstanding (w : BackupSites) (view : MultiSitePostgres) (declared : List DeclaredObject)
    (operation : SiteOperation) : Bool :=
  w.hub.directives.any fun map => map.type = "Backup" ∧ map.operationUID = operation.operationUID ∧
    directiveOwnerTrusted map view w.hub.upgrades declared

/-- When the server looks for directives, the backup source is at the site that was sent the
backups whose directives are still trusted. -/
def steady (w : BackupSites) : BackupSitesEvent → Prop
  | .sync _ view declared _ => ∀ operation ∈ w.sends, w.outstanding view declared operation →
      selectBackupSource view = "" ∨
        memberTargetsSite view (selectBackupSource view) operation.registration
  | _ => True

instance (w : BackupSites) (e : BackupSitesEvent) : Decidable (steady w e) := by
  unfold steady
  split <;> infer_instance

/-! ## Invariant -/

structure Targeted (w : BackupSites) : Prop where
  delivered : ∀ a ∈ w.inbox, a ∈ w.sends
  executed : ∀ a ∈ w.executed, a ∈ w.sends
  oneSite : ∀ a ∈ w.sends, ∀ b ∈ w.sends, a.operationUID = b.operationUID →
    a.registration = b.registration

theorem Targeted.initial {config : HubConfig} (h : Initial config w) : Targeted w := by
  obtain ⟨-, -, hinbox, -, hsends, hexecuted⟩ := h
  constructor <;> simp [hinbox, hsends, hexecuted]

theorem mem_backups {registration : String} {view : MultiSitePostgres}
    {declared : List DeclaredObject} {sent : List String} {limit : Nat} {a : SiteOperation}
    (h : a ∈ backups registration (w.payloads registration view declared sent limit)) :
    a.registration = registration ∧ w.outstanding view declared a = true ∧
      selectBackupSource view ≠ "" ∧
      memberTargetsSite view (selectBackupSource view) registration = true := by
  obtain ⟨p, hp, rfl⟩ := mem_map.mp h
  obtain ⟨hp, htype⟩ := mem_filter.mp hp
  obtain ⟨map, hmap, hdeliverable, rfl, -⟩ := DirectiveReads.mem_sendDirectives hp
  have hbackup : map.type = "Backup" := of_decide_eq_true htype
  obtain ⟨hsource, htargets⟩ := DirectiveReads.targets_backup hdeliverable hbackup
  refine ⟨rfl, any_eq_true.mpr ⟨map, hmap, decide_eq_true ⟨hbackup, rfl, ?_⟩⟩, hsource, htargets⟩
  exact (of_decide_eq_true hdeliverable).2.2.2.2

theorem Targeted.sync {registration : String} {view : MultiSitePostgres}
    {declared : List DeclaredObject} {limit : Nat} (sent : List String) (h : Targeted w)
    (hsteady : steady w (.sync registration view declared limit)) :
    ∀ a ∈ backups registration (w.payloads registration view declared sent limit) ++ w.sends,
      ∀ b ∈ backups registration (w.payloads registration view declared sent limit) ++ w.sends,
        a.operationUID = b.operationUID → a.registration = b.registration := by
  -- a backup sent now was sent before only to the same site
  have hagain : ∀ a ∈ backups registration (w.payloads registration view declared sent limit),
      ∀ b ∈ w.sends, a.operationUID = b.operationUID → registration = b.registration := by
    intro a ha b hb hop
    obtain ⟨-, houtstanding, hsource, htargets⟩ := mem_backups ha
    have hb' : w.outstanding view declared b = true := by
      unfold outstanding at houtstanding ⊢
      rwa [← hop]
    rcases hsteady b hb hb' with hnone | hsite
    · exact absurd hnone hsource
    · exact memberTargetsSite_unique htargets hsite
  intro a ha b hb hop
  rcases mem_append.mp ha with ha | ha <;> rcases mem_append.mp hb with hb | hb
  · rw [(mem_backups ha).1, (mem_backups hb).1]
  · rw [(mem_backups ha).1]
    exact hagain a ha b hb hop
  · rw [(mem_backups hb).1]
    exact (hagain b hb a ha hop.symm).symm
  · exact h.oneSite a ha b hb hop

theorem Targeted.step {config : HubConfig} {w' : BackupSites} {e : BackupSitesEvent}
    (h : Targeted w) (hok : steady w e) (hst : w.step config e = some w') : Targeted w' := by
  cases e with
  | hub event =>
    obtain ⟨next, -, rfl⟩ := Option.map_eq_some_iff.mp hst
    exact ⟨h.delivered, h.executed, h.oneSite⟩
  | connect registration =>
    cases hst
    exact ⟨h.delivered, h.executed, h.oneSite⟩
  | disconnect registration =>
    cases hst
    exact ⟨fun a ha => h.delivered a (mem_of_mem_filter ha), h.executed, h.oneSite⟩
  | sync registration view declared limit =>
    rw [BackupSites.step] at hst
    split at hst
    · obtain ⟨stream, -, rfl⟩ := Option.map_eq_some_iff.mp hst
      refine ⟨fun a ha => ?_, fun a ha => mem_append_right _ (h.executed a ha),
        h.sync stream.sent hok⟩
      rcases mem_append.mp ha with ha | ha
      · exact mem_append_left _ ha
      · exact mem_append_right _ (h.delivered a ha)
    · cases hst
  | handle operation stores =>
    rw [BackupSites.step] at hst
    split at hst
    · rename_i hmem
      have hrest : ∀ a ∈ w.inbox.erase operation, a ∈ w.sends :=
        fun a ha => h.delivered a (mem_of_mem_erase ha)
      split at hst
      · cases hst
        exact ⟨hrest, h.executed, h.oneSite⟩
      · cases hst
        exact ⟨hrest, forall_mem_cons.mpr ⟨h.delivered operation hmem, h.executed⟩, h.oneSite⟩
    · cases hst

open Machine

/-- In every run in which the backup source stays at the site that was sent the outstanding
backups, each backup operation is executed at one site at most. -/
theorem oneSite_of_reach {config : HubConfig} {w : BackupSites}
    (h : Reach (step config) (Initial config) steady w) : OneSite w := by
  have hinv : Targeted w :=
    h.invariant (fun _ hinit => Targeted.initial hinit) fun _ _ _ => Targeted.step
  exact fun a ha b hb => hinv.oneSite a (hinv.executed a ha) b (hinv.executed b hb)

/-! ## A standby that moves -/

open Sample

def fresh : BackupSites where
  hub := Sample.created solo

theorem fresh_initial : Initial Sample.hub fresh := ⟨solo_initial, rfl, rfl, rfl, rfl, rfl⟩

def after (ok : BackupSites → BackupSitesEvent → Prop) [∀ w e, Decidable (ok w e)]
    (script : List (BackupSites → BackupSitesEvent)) : BackupSites :=
  reached (step Sample.hub) ok fresh script

def hubEvents (events : List (HubState → HubEvent)) : List (BackupSites → BackupSitesEvent) :=
  events.map fun event w => .hub (event w.hub)

def backedUpAt (site : String) : List (BackupSites → BackupSitesEvent) :=
  [fun _ => .connect site, fun w => .sync site w.hub.stored [] 100,
    fun _ => .handle ⟨site, "ledger-18-uid-preflight-backup"⟩ true]

def observed (topology : String × List String) : List (HubState → HubEvent) :=
  [healthFrom "production-vic" topology, healthFrom "production-nsw" topology] ++ reconciledWith

/-- The upgrade of `solo` has requested its preflight backup, which the site of the standby
has executed. -/
def preflight : List (BackupSites → BackupSitesEvent) :=
  hubEvents (rollOut Sample.reads ++ Sample.addressed ++ [Sample.evidence] ++
      observed Sample.topology ++
      (fun _ => .createUpgrade ledgerUpgrade) :: List.replicate 3 upgradeStep) ++
    backedUpAt "production-nsw"

def moved : BackupSites :=
  after anyStep (preflight ++ hubEvents (observed (nsw0, [vic0])) ++ backedUpAt "production-vic")

theorem moved_twoSites : Reach (step Sample.hub) (Initial Sample.hub) anyStep moved ∧
      ¬ OneSite moved := by
  unfold moved after
  exact played (P := fun w : BackupSites => ¬ OneSite w) fresh_initial (by decide +kernel)

def reconnected : BackupSites :=
  after steady (preflight ++ [fun _ => .disconnect "production-nsw"] ++ backedUpAt "production-nsw")

/-- The operation was sent twice and executed once. -/
def Replayed (w : BackupSites) : Prop := w.sends.length = 2 ∧ w.executed.length = 1
deriving Decidable

theorem reconnected_reach : Reach (step Sample.hub) (Initial Sample.hub) steady reconnected ∧
      Replayed reconnected := by
  unfold reconnected after
  exact played (P := Replayed) fresh_initial (by decide +kernel)

theorem reconnected_oneSite : Replayed reconnected ∧ OneSite reconnected :=
  ⟨reconnected_reach.2, oneSite_of_reach reconnected_reach.1⟩

end BackupSites

end Mspsql
