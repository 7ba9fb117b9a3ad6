import Mspsql.Control.Receipts

/-!
# The address planner

The planner keeps no state of its own.  What it has assigned, and the migration that is
under way, it reads back from the plan stored for the first site of the specification.

`addressPlan_case` lists what a call can return: the stored assignment while a migration
waits for its sites, the reported addresses while a demanded member has none assigned, and
otherwise the stored assignment with at most one member moved.
-/

namespace Mspsql

def addressIn (addresses : StringMap) (member : String) : String :=
  (addresses.get? member).getD ""

theorem addressIn_insert (addresses : StringMap) (member other address : String) :
    addressIn (addresses.insert member address) other =
      if member = other then address else addressIn addresses other := by
  unfold addressIn
  rw [SortedMap.get?_insert]
  split <;> rfl

theorem addressesComplete_iff {addresses : StringMap} {expected : List String} :
    addressesComplete addresses expected = true ↔
      expected ≠ [] ∧ ∀ member ∈ expected, addressIn addresses member ≠ "" := by
  simp [addressesComplete, addressIn]

def assignedAddresses (reads : HubReads) (i : MultiSitePostgres) : StringMap :=
  ((activeSitePlan reads i).map (·.memberAddresses)).getD ∅

def activeMigration (reads : HubReads) (i : MultiSitePostgres) : Option AddressMigrationPlan :=
  (activeSitePlan reads i).bind (·.addressMigration)

def addressChanged (assigned observed : StringMap) (member : String) : Bool :=
  addressIn observed member ≠ "" ∧ addressIn observed member ≠ addressIn assigned member

def migrationOf (instanceUID : String) (assigned observed : StringMap) (member : String) :
    AddressMigrationPlan where
  operationUID := migrationUID instanceUID member (addressIn assigned member)
    (addressIn observed member)
  member := member
  oldAddress := addressIn assigned member
  newAddress := addressIn observed member

def MigrationDone (reads : HubReads) (i : MultiSitePostgres) : Prop :=
  activeMigration reads i = none ∨ allSitesApplied i.status.sites i.status.activeRevision = true

/-- What `addressPlan` can return. -/
inductive AddressCase (reads : HubReads) (i : MultiSitePostgres) : AddressPlan → Prop where
  | waiting (migration : (activeMigration reads i).isSome = true)
      (unapplied : allSitesApplied i.status.sites i.status.activeRevision = false) :
      AddressCase reads i ⟨assignedAddresses reads i, observedAddresses i.status.sites,
        activeMigration reads i⟩
  | gathering (done : MigrationDone reads i)
      (incomplete : addressesComplete (assignedAddresses reads i)
        (expectedAddressMembers i.spec.sites) = false) :
      AddressCase reads i ⟨observedAddresses i.status.sites, observedAddresses i.status.sites, none⟩
  | settled (done : MigrationDone reads i) (complete : addressesComplete (assignedAddresses reads i)
        (expectedAddressMembers i.spec.sites) = true)
      (unchanged : ∀ member ∈ expectedAddressMembers i.spec.sites,
        addressChanged (assignedAddresses reads i) (observedAddresses i.status.sites) member =
          false) :
      AddressCase reads i ⟨assignedAddresses reads i, observedAddresses i.status.sites, none⟩
  | moves (done : MigrationDone reads i) (complete : addressesComplete (assignedAddresses reads i)
        (expectedAddressMembers i.spec.sites) = true)
      {member : String} (demanded : member ∈ expectedAddressMembers i.spec.sites)
      (changed : addressChanged (assignedAddresses reads i)
        (observedAddresses i.status.sites) member = true)
      (least : ∀ other ∈ expectedAddressMembers i.spec.sites,
        addressChanged (assignedAddresses reads i) (observedAddresses i.status.sites) other =
          true → member ≤ other) :
      AddressCase reads i ⟨(assignedAddresses reads i).insert member
          (addressIn (observedAddresses i.status.sites) member),
        observedAddresses i.status.sites,
        some (migrationOf i.uid (assignedAddresses reads i)
          (observedAddresses i.status.sites) member)⟩

theorem addressPlan_case (reads : HubReads) (i : MultiSitePostgres) :
    AddressCase reads i (addressPlan reads i) := by
  unfold addressPlan
  dsimp only
  split
  · rename_i hwaiting
    exact .waiting hwaiting.1 hwaiting.2
  rename_i hdone
  have hdone : MigrationDone reads i := by
    rcases hmig : activeMigration reads i with _ | m
    · exact .inl hmig
    right
    by_contra hunapplied
    refine hdone ⟨?_, Bool.not_eq_true _ ▸ hunapplied⟩
    exact Option.isSome_iff_exists.mpr ⟨m, hmig⟩
  split
  · rename_i hincomplete
    exact .gathering hdone hincomplete
  rename_i hcomplete
  have hcomplete := Bool.not_eq_false _ ▸ hcomplete
  split
  · rename_i hnil
    refine .settled hdone hcomplete fun member hmember => ?_
    by_contra hchanged
    have hmem : member ∈ Text.sortText ((expectedAddressMembers i.spec.sites).filter
        (addressChanged (assignedAddresses reads i) (observedAddresses i.status.sites))) :=
      Text.mem_sortText.mpr (List.mem_filter.mpr ⟨hmember, Bool.not_eq_false _ ▸ hchanged⟩)
    have hnil : Text.sortText ((expectedAddressMembers i.spec.sites).filter
        (addressChanged (assignedAddresses reads i)
          (observedAddresses i.status.sites))) = [] := hnil
    rw [hnil] at hmem
    cases hmem
  · rename_i member rest hcons
    have hhead := Text.mem_sortText.mp (hcons ▸ List.mem_cons_self)
    obtain ⟨hmember, hchanged⟩ := List.mem_filter.mp hhead
    refine .moves hdone hcomplete hmember hchanged fun other hother hother' => ?_
    have hin : other ∈ member :: rest :=
      hcons ▸ Text.mem_sortText.mpr (List.mem_filter.mpr ⟨hother, hother'⟩)
    exact Text.le_of_sortText_cons hcons hin

end Mspsql
