import Blocklist.Proofs.Disturbance
import Blocklist.Proofs.FileStore

set_option autoImplicit false

/-! # Both kinds of stores

A store in a file answers a sequence of requests as a store in memory does that holds what the file
spells (`file_serves_as_memory`): a missing file spells the empty store, and a file that spells no
snapshot answers that it is corrupt, whatever is asked. Two stores that hold one snapshot cannot be
told apart, of whatever kind they are (`Store.View.serveAll_eq`); so what is left to say of the
file is that it holds a snapshot from the start, and that a refused commit leaves it alone. -/

namespace Blocklist

open Machine FileStore

/-! ## Content of a file -/

namespace FileStore

variable {place : Place} {sandbox : Sandbox} {content? : Option ByteArray}

/-- In an empty directory there is room for any file. -/
theorem keeps_empty (place : Place) : Keeps place .empty none := by
  have hempty : ∀ names : List String, names ≠ [] → FileTree.empty.node? names = none := by
    intro names hne
    simp [FileTree.node?, FileTree.empty, hne]
  refine ⟨hempty _ place.names_ne_nil, ?_, ?_, ?_, hempty _ (draftPlace place).names_ne_nil⟩
  · intro above content _ hnode
    by_cases habove : above = []
    · subst habove
      cases hnode
    · rw [hempty above habove] at hnode
      cases hnode
  · intro hsome
    cases hsome
  · rw [hempty _ (lockPlace place).names_ne_nil]
    intro hdirectory
    cases hdirectory

/-- What a file store holds: what its file spells. -/
def spelled? : Option ByteArray → Option Versioned
  | none => some .unwritten
  | some content => (Json.parseBytes? content).bind Versioned.read?

theorem stored_of_spelled? (path : String) {v : Versioned} (h : spelled? content? = some v) :
    stored path content? = .ok v := by
  cases content? with
  | none => exact congrArg _ (Option.some.inj h)
  | some content =>
    have hcontent : (Json.parseBytes? content).bind Versioned.read? = some v := h
    rw [stored, ofContent, hcontent]

theorem stored_of_spelled?_eq_none (path : String) (h : spelled? content? = none) :
    ∃ cause, stored path content? = .error (.corrupt path cause) := by
  cases content? with
  | none => cases h
  | some content =>
    have hcontent : (Json.parseBytes? content).bind Versioned.read? = none := h
    exact ⟨_, by rw [stored, ofContent, hcontent]⟩

end FileStore

namespace Override

/-! ## Requests -/

/-- What a store can be asked. -/
inductive StoreRequest where
  | load
  | commit (expected : UInt64) (state : PersistedState)

/-- What a store replies. -/
inductive StoreReply where
  | loaded (result : Except StoreError Versioned)
  | committed (result : Except StoreError UInt64)

/-- Whether a reply is nothing but a given error. -/
def StoreReply.Refuses : StoreReply → StoreError → Prop
  | .loaded result, e => result = .error e
  | .committed result, e => result = .error e

namespace Store

/-- Replies to one request. -/
def serve (store : Store) : StoreRequest → StoreReply × Store
  | .load => (.loaded store.load.1, store.load.2)
  | .commit expected state =>
    (.committed (store.commit expected state).1, (store.commit expected state).2)

/-- Replies to requests, one after another. -/
def serveAll (store : Store) : List StoreRequest → List StoreReply × Store
  | [] => ([], store)
  | request :: rest =>
    let (reply, next) := store.serve request
    let (replies, last) := next.serveAll rest
    (reply :: replies, last)

end Store

theorem Store.serveAll_cons (store : Store) (request : StoreRequest) (rest : List StoreRequest) :
    store.serveAll (request :: rest)
      = ((store.serve request).1 :: ((store.serve request).2.serveAll rest).1,
        ((store.serve request).2.serveAll rest).2) := rfl

/-! ## Stores that hold the same -/

namespace Store.View

variable {view other : Store.View} {store store' : Store} {v : Versioned}

theorem serve_eq (h : view.Holds store v) (h' : other.Holds store' v) (request : StoreRequest) :
    (store.serve request).1 = (store'.serve request).1
      ∧ ∃ next, view.Holds (store.serve request).2 next
        ∧ other.Holds (store'.serve request).2 next := by
  cases request with
  | load =>
    obtain ⟨hloaded, hheld⟩ := view.load h
    obtain ⟨hloaded', hheld'⟩ := other.load h'
    exact ⟨congrArg StoreReply.loaded (hloaded.trans hloaded'.symm), v, hheld, hheld'⟩
  | commit expected state =>
    obtain ⟨hreply, hheld⟩ := view.commit h expected state
    obtain ⟨hreply', hheld'⟩ := other.commit h' expected state
    exact ⟨congrArg StoreReply.committed (hreply.trans hreply'.symm), _, hheld, hheld'⟩

/-- Stores that hold the same snapshot give the same replies. -/
theorem serveAll_eq (h : view.Holds store v) (h' : other.Holds store' v)
    (requests : List StoreRequest) :
    (store.serveAll requests).1 = (store'.serveAll requests).1 := by
  induction requests generalizing store store' v with
  | nil => rfl
  | cons request rest ih =>
    obtain ⟨hreply, next, hheld, hheld'⟩ := serve_eq h h' request
    rw [serveAll_cons, serveAll_cons, hreply, ih hheld hheld']

end Store.View

/-! ## Stores in files -/

section

variable {place : Place} {sandbox : Sandbox} {content? : Option ByteArray}

theorem load_file (h : Keeps place sandbox.tree content?) :
    Store.load (.file place.path sandbox)
      = (stored place.path content?, .file place.path sandbox) := by
  rw [Store.load, Store.onFiles, run_load h]
  rfl

theorem commit_file (h : Keeps place sandbox.tree content?) (expected : UInt64)
    (state : PersistedState) :
    ∃ after, Store.commit expected state (.file place.path sandbox)
        = ((afterCommit place.path expected state content?).1, .file place.path after)
      ∧ Keeps place after.tree (afterCommit place.path expected state content?).2 := by
  obtain ⟨after, hrun, hkeeps⟩ := run_commit h expected state
  refine ⟨after, ?_, hkeeps⟩
  rw [Store.commit, Store.onFiles, hrun]
  rfl

/-- Where a file spells a snapshot, a commit is one of this snapshot. -/
theorem afterCommit_of_stored {path : String} {v : Versioned} (h : stored path content? = .ok v)
    (expected : UInt64) (state : PersistedState) :
    (afterCommit path expected state content?).1 = (replace expected state v).1
      ∧ stored path (afterCommit path expected state content?).2
        = .ok (replace expected state v).2 := by
  rw [afterCommit, h, replace]
  simp only
  by_cases hcurrent : v.revision = expected
  · rw [if_pos hcurrent, if_pos hcurrent]
    exact ⟨rfl, ofContent_document path _⟩
  · rw [if_neg hcurrent, if_neg hcurrent]
    exact ⟨rfl, h⟩

/-- Where a file spells none, every commit fails as every look at it does. -/
theorem afterCommit_of_error {path : String} {e : StoreError} (h : stored path content? = .error e)
    (expected : UInt64) (state : PersistedState) :
    afterCommit path expected state content? = (.error e, content?) := by
  rw [afterCommit, h]

/-- What a commit was accepted with is what is read next; a refused one leaves the bytes alone. -/
theorem commit_file_settles (h : Keeps place sandbox.tree content?) (expected : UInt64)
    (state : PersistedState) :
    match Store.commit expected state (.file place.path sandbox) with
    | (.ok revision, next) => revision = expected + 1 ∧ next.load.1 = .ok ⟨revision, state⟩
    | (.error _, next) => ∃ last, next = .file place.path last
        ∧ last.tree.read place.path = sandbox.tree.read place.path := by
  obtain ⟨next, hcommit, hnext⟩ := commit_file h expected state
  rw [hcommit]
  cases hstored : stored place.path content? with
  | error e =>
    rw [afterCommit_of_error hstored] at hnext ⊢
    exact ⟨next, rfl, hnext.read.trans h.read.symm⟩
  | ok v =>
    rw [afterCommit, hstored] at hnext ⊢
    simp only at hnext ⊢
    by_cases hcurrent : v.revision = expected
    · rw [if_pos hcurrent] at hnext ⊢
      simp only [load_file hnext, true_and]
      exact ofContent_document place.path _
    · rw [if_neg hcurrent] at hnext ⊢
      exact ⟨next, rfl, hnext.read.trans h.read.symm⟩

/-- Whatever a store in a file is asked, it keeps some content there. -/
theorem serve_file (h : Keeps place sandbox.tree content?) (request : StoreRequest) :
    ∃ after content', ((Store.file place.path sandbox).serve request).2 = .file place.path after
      ∧ Keeps place after.tree content'
      ∧ ∀ e, stored place.path content? = .error e →
        ((Store.file place.path sandbox).serve request).1.Refuses e ∧ content' = content? := by
  cases request with
  | load =>
    refine ⟨sandbox, content?, ?_, h, fun e hstored => ⟨?_, rfl⟩⟩
    · rw [Store.serve, load_file h]
    · rw [Store.serve, load_file h]
      exact hstored
  | commit expected state =>
    obtain ⟨after, hcommit, hafter⟩ := commit_file h expected state
    refine ⟨after, _, ?_, hafter, fun e hstored => ?_⟩
    · rw [Store.serve, hcommit]
    · have hrefused := afterCommit_of_error hstored expected state
      rw [Store.serve, hcommit, hrefused]
      exact ⟨rfl, rfl⟩

theorem serveAll_file (h : Keeps place sandbox.tree content?) (requests : List StoreRequest) :
    ∃ after content', ((Store.file place.path sandbox).serveAll requests).2 = .file place.path after
      ∧ Keeps place after.tree content'
      ∧ ∀ e, stored place.path content? = .error e →
        ∀ reply ∈ ((Store.file place.path sandbox).serveAll requests).1, reply.Refuses e := by
  induction requests generalizing sandbox content? with
  | nil => exact ⟨sandbox, content?, rfl, h, fun _ _ _ hreply => nomatch hreply⟩
  | cons request rest ih =>
    obtain ⟨next, content', hnext, hkeeps, hrefuses⟩ := serve_file h request
    obtain ⟨after, last, hafter, hlast, hrest⟩ := ih hkeeps
    refine ⟨after, last, ?_, hlast, fun e hstored => ?_⟩
    · rw [Store.serveAll_cons, hnext]
      exact hafter
    · obtain ⟨hreply, rfl⟩ := hrefuses e hstored
      rw [Store.serveAll_cons, hnext]
      exact List.forall_mem_cons.2 ⟨hreply, hrest e hstored⟩

end

/-- What stores in files hold. -/
def Store.View.file (place : Place) : Store.View where
  Holds store v := ∃ sandbox content?, store = .file place.path sandbox
    ∧ Keeps place sandbox.tree content? ∧ stored place.path content? = .ok v
  load h := by
    obtain ⟨sandbox, content?, rfl, hkeeps, hstored⟩ := h
    rw [load_file hkeeps]
    exact ⟨hstored, sandbox, content?, rfl, hkeeps, hstored⟩
  commit h expected state := by
    obtain ⟨sandbox, content?, rfl, hkeeps, hstored⟩ := h
    obtain ⟨after, hcommit, hafter⟩ := commit_file hkeeps expected state
    obtain ⟨hreply, hreplaced⟩ := afterCommit_of_stored hstored expected state
    rw [hcommit]
    exact ⟨hreply, after, _, rfl, hafter, hreplaced⟩

/-- A store of either kind holds a snapshot. -/
def Store.Holds (store : Store) (v : Versioned) : Prop :=
  Store.View.memory.Holds store v ∨ ∃ place, (Store.View.file place).Holds store v

/-- What stores of both kinds hold. -/
def Store.View.either : Store.View where
  Holds := Store.Holds
  load h := by
    rcases h with h | ⟨place, h⟩
    · obtain ⟨hloaded, hheld⟩ := Store.View.memory.load h
      exact ⟨hloaded, .inl hheld⟩
    · obtain ⟨hloaded, hheld⟩ := (Store.View.file place).load h
      exact ⟨hloaded, .inr ⟨place, hheld⟩⟩
  commit h expected state := by
    rcases h with h | ⟨place, h⟩
    · obtain ⟨hreply, hheld⟩ := Store.View.memory.commit h expected state
      exact ⟨hreply, .inl hheld⟩
    · obtain ⟨hreply, hheld⟩ := (Store.View.file place).commit h expected state
      exact ⟨hreply, .inr ⟨place, hheld⟩⟩

/-- A store in a file replies as the store in memory that holds what the file spells; if it spells
nothing, every reply is that it is corrupt. After any requests no draft is left, what a commit was
accepted with is what is read next, and a refused commit leaves the bytes of the file alone. -/
theorem file_serves_as_memory {place : Place} {sandbox : Sandbox} {content? : Option ByteArray}
    (h : Keeps place sandbox.tree content?) (requests : List StoreRequest) :
    let served := (Store.file place.path sandbox).serveAll requests
    (∀ v, spelled? content? = some v →
        served.1 = ((Store.memory ⟨v⟩).serveAll requests).1)
      ∧ (spelled? content? = none →
        ∀ reply ∈ served.1, ∃ cause, reply.Refuses (.corrupt place.path cause))
      ∧ ∃ after, served.2 = .file place.path after
        ∧ after.tree.read (draftPath place.path) = .error FileTree.missing
        ∧ ∀ expected state, match served.2.commit expected state with
          | (.ok revision, next) => revision = expected + 1 ∧ next.load.1 = .ok ⟨revision, state⟩
          | (.error _, next) => ∃ last, next = .file place.path last
              ∧ last.tree.read place.path = after.tree.read place.path := by
  obtain ⟨after, content', hafter, hkeeps, hrefuses⟩ := serveAll_file h requests
  refine ⟨?_, ?_, after, hafter, ?_, ?_⟩
  · intro v hspelled
    exact @Store.View.serveAll_eq (.file place) .memory _ _ v
      ⟨sandbox, content?, rfl, h, stored_of_spelled? place.path hspelled⟩ rfl requests
  · intro hnone reply hreply
    obtain ⟨cause, hstored⟩ := stored_of_spelled?_eq_none place.path hnone
    exact ⟨cause, hrefuses _ hstored reply hreply⟩
  · rw [← path_draftPlace]
    exact Place.read_of_none hkeeps.passable hkeeps.draft
  · intro expected state
    rw [hafter]
    exact commit_file_settles hkeeps expected state

/-- A path that leads through a directory. -/
def overridesPlace : Place where
  front := "state/"
  name := "overrides.json"
  relative := by decide
  slash := by simp
  down := by decide
  slashless := by decide
  nonempty := by decide
  named := by decide

theorem file_serves_as_memory_fresh :
    Keeps overridesPlace .empty none
      ∧ ((Store.file "state/overrides.json" ⟨.empty, 0⟩).serveAll
          [.commit 0 .initial, .commit 0 .initial, .load]).1
        = [.committed (.ok 1), .committed (.error (.conflict 0 1)), .loaded (.ok ⟨1, .initial⟩)] :=
  ⟨keeps_empty overridesPlace,
    (@file_serves_as_memory overridesPlace ⟨.empty, 0⟩ none (keeps_empty overridesPlace)
      [.commit 0 .initial, .commit 0 .initial, .load]).1 .unwritten rfl⟩

end Override

end Blocklist
