import Blocklist.Proofs.Stores
import Mathlib.Data.List.Induction

set_option autoImplicit false

/-! # No update is lost

Clients of one store take turns in any order: a client loads the state, or commits what it makes of
the state that it loaded last, however long ago. The state is what the accepted changes make of the
first one, in the order in which they were accepted, and a commit is accepted exactly if none was
since its client's load (`updates_kept`).

The invariant is about what a client holds: the commits accepted since its load lead from the
revision of what it holds to the current one. So revisions that agree mean that there were none, as
long as the revisions do not start over. -/

namespace Blocklist.Override

variable {ι : Type}

/-! ## Clients -/

/-- A turn of a client. -/
inductive ClientTurn (ι : Type) where
  | load (client : ι)
  | commit (client : ι) (change : PersistedState → PersistedState)

/-- What came of a turn. -/
inductive Deed (ι : Type) where
  | loaded (client : ι)
  | accepted (client : ι) (change : PersistedState → PersistedState)
  | refused (client : ι) (e : StoreError)

namespace Deed

/-- The change of an accepted commit. -/
def change? : Deed ι → Option (PersistedState → PersistedState)
  | accepted _ change => some change
  | _ => none

/-- Whether a client loaded. -/
def isLoadOf [DecidableEq ι] (client : ι) : Deed ι → Bool
  | loaded other => other = client
  | _ => false

end Deed

/-- The changes that were accepted, last first. -/
def changes (deeds : List (Deed ι)) : List (PersistedState → PersistedState) :=
  deeds.filterMap Deed.change?

/-- What came of the turns since a client's last load, last first. -/
def since [DecidableEq ι] (client : ι) (deeds : List (Deed ι)) : List (Deed ι) :=
  deeds.takeWhile (!·.isLoadOf client)

section

variable (client : ι) (deeds : List (Deed ι))

@[simp]
theorem changes_loaded : changes (.loaded client :: deeds) = changes deeds := rfl

@[simp]
theorem changes_accepted (change : PersistedState → PersistedState) :
    changes (.accepted client change :: deeds) = change :: changes deeds := rfl

@[simp]
theorem changes_refused (e : StoreError) :
    changes (.refused client e :: deeds) = changes deeds := rfl

@[simp]
theorem since_cons [DecidableEq ι] (deed : Deed ι) :
    since client (deed :: deeds)
      = if deed.isLoadOf client then [] else deed :: since client deeds := by
  rw [since, List.takeWhile_cons]
  cases deed.isLoadOf client with
  | true => rfl
  | false => rfl

end

/-- Clients of one store. -/
structure Crowd (ι : Type) where
  store : Store
  /-- What each client loaded last. -/
  held : ι → Option Versioned
  /-- What came of the turns so far, last first. -/
  deeds : List (Deed ι)

namespace Crowd

variable [DecidableEq ι]

/-- A turn. A client that has loaded nothing has nothing to commit. -/
def step (crowd : Crowd ι) : ClientTurn ι → Crowd ι
  | .load client =>
    match crowd.store.load with
    | (.ok v, store) =>
      ⟨store, fun other => if other = client then some v else crowd.held other,
        .loaded client :: crowd.deeds⟩
    | (.error _, store) => { crowd with store }
  | .commit client change =>
    match crowd.held client with
    | none => crowd
    | some base =>
      match crowd.store.commit base.revision (change base.state) with
      | (.ok _, store) => { crowd with store, deeds := .accepted client change :: crowd.deeds }
      | (.error e, store) => { crowd with store, deeds := .refused client e :: crowd.deeds }

/-- Turns, one after another, of clients that have loaded nothing yet. -/
def run (store : Store) (turns : List (ClientTurn ι)) : Crowd ι :=
  turns.foldl step ⟨store, fun _ => none, []⟩

/-! ## What turns keep to -/

/-- The current snapshot comes from the first by the accepted changes, and what a client holds
became the current snapshot by those since its load. -/
structure Kept (start : Versioned) (crowd : Crowd ι) (current : Versioned) : Prop where
  holds : crowd.store.Holds current
  state : current.state = (changes crowd.deeds).foldr (fun change state => change state) start.state
  revision : current.revision.toNat = start.revision.toNat + (changes crowd.deeds).length
  held : ∀ client base, crowd.held client = some base →
    current.revision.toNat = base.revision.toNat + (changes (since client crowd.deeds)).length
      ∧ (changes (since client crowd.deeds) = [] → base = current)

variable {start current : Versioned} {crowd : Crowd ι}

theorem kept_start {store : Store} (h : store.Holds start) :
    Kept start (⟨store, fun _ => none, []⟩ : Crowd ι) start where
  holds := h
  state := rfl
  revision := rfl
  held := nofun

/-- A client whose revision is the current one holds the current snapshot. -/
theorem Kept.revision_eq_iff (h : Kept start crowd current) {client : ι} {base : Versioned}
    (hheld : crowd.held client = some base) :
    current.revision = base.revision ↔ changes (since client crowd.deeds) = [] := by
  obtain ⟨hrevision, hbase⟩ := h.held client base hheld
  constructor
  · intro heq
    rw [heq] at hrevision
    exact List.length_eq_zero_iff.1 (by omega)
  · intro hnone
    rw [hbase hnone]

theorem replace_of_ne {expected : UInt64} {v : Versioned} (h : v.revision ≠ expected)
    (state : PersistedState) :
    replace expected state v = (.error (.conflict expected v.revision), v) := by
  simp [replace, h]

/-- Without a commit since its load, the commit of a client is accepted. -/
theorem Kept.commit_of_fresh (h : Kept start crowd current) {client : ι} {base : Versioned}
    (hheld : crowd.held client = some base) (hfresh : changes (since client crowd.deeds) = [])
    (change : PersistedState → PersistedState) :
    ∃ next,
      crowd.store.commit base.revision (change base.state) = (.ok (current.revision + 1), next)
      ∧ next.Holds ⟨current.revision + 1, change current.state⟩ := by
  have hbase : base = current := (h.held client base hheld).2 hfresh
  subst hbase
  have hcommit := Store.View.either.commit h.holds base.revision (change base.state)
  rw [replace_current] at hcommit
  exact ⟨_, Prod.ext hcommit.1 rfl, hcommit.2⟩

/-- After a commit since its load, the commit of a client finds a conflict. -/
theorem Kept.commit_of_stale (h : Kept start crowd current) {client : ι} {base : Versioned}
    (hheld : crowd.held client = some base) (hstale : changes (since client crowd.deeds) ≠ [])
    (change : PersistedState → PersistedState) :
    ∃ next, crowd.store.commit base.revision (change base.state)
        = (.error (.conflict base.revision current.revision), next)
      ∧ next.Holds current := by
  have hne : current.revision ≠ base.revision := fun heq =>
    hstale ((h.revision_eq_iff hheld).1 heq)
  have hcommit := Store.View.either.commit h.holds base.revision (change base.state)
  rw [replace_of_ne hne] at hcommit
  exact ⟨_, Prod.ext hcommit.1 rfl, hcommit.2⟩

theorem Kept.load (h : Kept start crowd current) (client : ι) :
    Kept start (crowd.step (.load client)) current := by
  obtain ⟨hload, hafter⟩ := Store.View.either.load h.holds
  have hanswer : crowd.store.load = (.ok current, crowd.store.load.2) := Prod.ext hload rfl
  rw [step, hanswer]
  refine ⟨hafter, h.state, h.revision, fun other base hheld => ?_⟩
  by_cases hother : other = client
  · have hbase : current = base := by simpa [hother] using hheld
    simp [Deed.isLoadOf, hother, hbase, changes]
  · have hbase : crowd.held other = some base := by simpa [hother] using hheld
    have hsince := h.held other base hbase
    simpa [Deed.isLoadOf, Ne.symm hother] using hsince

theorem Kept.commit (h : Kept start crowd current) (client : ι)
    (change : PersistedState → PersistedState)
    (hroom : start.revision.toNat
      + (changes (crowd.step (.commit client change)).deeds).length < 2 ^ 64) :
    ∃ next, Kept start (crowd.step (.commit client change)) next := by
  rw [step] at hroom ⊢
  cases hheld : crowd.held client with
  | none => exact ⟨current, h⟩
  | some base =>
    by_cases hfresh : changes (since client crowd.deeds) = []
    · obtain ⟨store, hcommit, hafter⟩ := h.commit_of_fresh hheld hfresh change
      simp only [hheld, hcommit, changes_accepted, List.length_cons] at hroom ⊢
      have hnext : (current.revision + 1).toNat = current.revision.toNat + 1 := by
        rw [UInt64.toNat_add, h.revision]
        exact Nat.mod_eq_of_lt (by simpa [Nat.add_assoc] using hroom)
      refine ⟨_, hafter, ?_, ?_, fun other held hother => ?_⟩
      · rw [changes_accepted, List.foldr_cons, ← h.state]
      · rw [changes_accepted, List.length_cons, hnext, h.revision, Nat.add_assoc]
      · have hold := (h.held other held hother).1
        have hsince : changes (since other (.accepted client change :: crowd.deeds))
            = change :: changes (since other crowd.deeds) := by
          simp [Deed.isLoadOf]
        rw [hsince, List.length_cons, hnext]
        exact ⟨by omega, nofun⟩
    · obtain ⟨store, hcommit, hafter⟩ := h.commit_of_stale hheld hfresh change
      simp only [hcommit]
      refine ⟨current, hafter, h.state, h.revision, fun other held hother => ?_⟩
      simpa [Deed.isLoadOf] using h.held other held hother

/-- A turn takes no accepted change back. -/
theorem length_changes_le (crowd : Crowd ι) (turn : ClientTurn ι) :
    (changes crowd.deeds).length ≤ (changes (crowd.step turn).deeds).length := by
  fun_cases step crowd turn with
  | case1 => exact Nat.le_refl _
  | case2 => exact Nat.le_refl _
  | case3 => exact Nat.le_refl _
  | case4 => simp
  | case5 => exact Nat.le_refl _

theorem exists_kept {store : Store} (h : store.Holds start) (turns : List (ClientTurn ι))
    (hroom : start.revision.toNat + (changes (run store turns).deeds).length < 2 ^ 64) :
    ∃ current, Kept start (run store turns) current := by
  induction turns using List.reverseRecOn with
  | nil => exact ⟨start, kept_start h⟩
  | append_singleton turns turn ih =>
    have hrun : run store (turns ++ [turn]) = (run store turns).step turn := by
      rw [run, List.foldl_append]
      rfl
    rw [hrun] at hroom ⊢
    have hle := length_changes_le (run store turns) turn
    obtain ⟨current, hkept⟩ := ih (by omega)
    cases turn with
    | load client => exact ⟨current, hkept.load client⟩
    | commit client change => exact hkept.commit client change hroom

end Crowd

/-- After any turns, the state is what the accepted changes make of the first one, in their order,
and the revision counts them. The next commit of a client is accepted exactly if no commit was
since the client's last load; otherwise it is told both revisions, and nothing changes. -/
theorem updates_kept [DecidableEq ι] {store : Store} {start : Versioned} (h : store.Holds start)
    (turns : List (ClientTurn ι))
    (hroom : start.revision.toNat + (changes (Crowd.run store turns).deeds).length < 2 ^ 64) :
    let crowd := Crowd.run store turns
    ∃ current, crowd.store.load.1 = .ok current
      ∧ current.state
        = (changes crowd.deeds).reverse.foldl (fun state change => change state) start.state
      ∧ current.revision.toNat = start.revision.toNat + (changes crowd.deeds).length
      ∧ ∀ client base, crowd.held client = some base →
        ∀ change : PersistedState → PersistedState,
        match crowd.store.commit base.revision (change base.state) with
        | (.ok revision, next) => changes (since client crowd.deeds) = []
            ∧ revision = current.revision + 1 ∧ next.load.1 = .ok ⟨revision, change current.state⟩
        | (.error e, next) => changes (since client crowd.deeds) ≠ []
            ∧ e = .conflict base.revision current.revision ∧ next.load.1 = .ok current := by
  obtain ⟨current, hkept⟩ := Crowd.exists_kept h turns hroom
  refine ⟨current, (Store.View.either.load hkept.holds).1, ?_, hkept.revision, ?_⟩
  · rw [hkept.state, List.foldl_reverse]
  · intro client base hheld change
    by_cases hfresh : changes (since client (Crowd.run store turns).deeds) = []
    · obtain ⟨next, hcommit, hnext⟩ := hkept.commit_of_fresh hheld hfresh change
      rw [hcommit]
      exact ⟨hfresh, rfl, (Store.View.either.load hnext).1⟩
    · obtain ⟨next, hcommit, hnext⟩ := hkept.commit_of_stale hheld hfresh change
      rw [hcommit]
      exact ⟨hfresh, rfl, (Store.View.either.load hnext).1⟩

/-- Two clients load, and both commit. -/
def race : List (ClientTurn Bool) :=
  [.load true, .load false, .commit true (·.addExemption "a.example"),
    .commit false (·.addExemption "b.example")]

theorem updates_kept_race :
    (Store.memory .empty).Holds .unwritten
      ∧ 0 + (changes (Crowd.run (.memory .empty) race).deeds).length < 2 ^ 64
      ∧ (Crowd.run (.memory .empty) race).store.load.1
        = .ok ⟨1, PersistedState.initial.addExemption "a.example"⟩ := by
  have hholds : (Store.memory .empty).Holds .unwritten := .inl rfl
  have hroom : 0 + (changes (Crowd.run (.memory .empty) race).deeds).length < 2 ^ 64 := by decide
  obtain ⟨current, hload, hstate, hrevision, -⟩ := updates_kept hholds race hroom
  have hchanges : changes (Crowd.run (.memory .empty) race).deeds
      = [(·.addExemption "a.example")] := rfl
  rw [hchanges] at hstate hrevision
  have hone : current.revision = 1 := UInt64.toNat_inj.1 hrevision
  have hcurrent : current = ⟨1, PersistedState.initial.addExemption "a.example"⟩ := by
    rw [← hone]
    exact congrArg (Versioned.mk current.revision) hstate
  exact ⟨hholds, hroom, hload.trans (congrArg _ hcurrent)⟩

end Blocklist.Override
