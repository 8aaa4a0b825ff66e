import Blocklist.Override.Environment
import Blocklist.Proofs.FileTree
import Blocklist.Proofs.Snapshot

set_option autoImplicit false

/-! # What a store does to its file

The calls of a store, run on a tree of files. All that matters of the tree is what it keeps at the
path of the store (`Keeps`): a load answers what this content stands for (`run_load`), and a commit
replaces it or leaves it as it is (`run_commit`). The two files beside it are never in the way of
the next commit, since the lock stays a file and the draft is moved away. -/

namespace Blocklist

namespace Machine.Sandbox

variable {α β ε : Type} {sandbox next : Sandbox}

/-! ## Runs on files -/

theorem run_bind (p : Run α) (f : α → Run β) (sandbox : Sandbox) :
    sandbox.run (p >>= f) = match sandbox.run p with
      | (some a, after) => after.run (f a)
      | (none, after) => (none, after) := by
  show sandbox.run (p.bind f) = _
  induction p generalizing sandbox with
  | done a => rfl
  | stuck => rfl
  | call c next ih => exact ih _ _

theorem run_bind_ok {p : ExceptT ε Run α} {a : α} (h : sandbox.run p.run = (some (.ok a), next))
    (f : α → ExceptT ε Run β) : sandbox.run (p >>= f).run = next.run (f a).run := by
  rw [ExceptT.run_bind, run_bind, h]

theorem run_bind_error {p : ExceptT ε Run α} {e : ε}
    (h : sandbox.run p.run = (some (.error e), next)) (f : α → ExceptT ε Run β) :
    sandbox.run (p >>= f).run = (some (.error e), next) := by
  rw [ExceptT.run_bind, run_bind, h]
  rfl

end Machine.Sandbox

namespace FileStore

open Machine

/-- A call that makes another tree of the files is attempted with success. -/
theorem run_attempt {call : Run (Except FileError Unit)} {sandbox : Sandbox}
    {result : Except FileError FileTree} {after : FileTree} (path : String)
    (hcall : sandbox.run call = (some (sandbox.changed result).1, (sandbox.changed result).2))
    (hresult : result = .ok after) :
    sandbox.run (attempt path call).run = (some (.ok ()), { sandbox with tree := after }) := by
  subst hresult
  rw [attempt, ExceptT.run_mk, Sandbox.run_bind, hcall]
  rfl

/-! ## What a tree keeps at a place -/

/-- Where the lock of a place stands. -/
def lockPlace (place : Place) : Place := place.beside ".lock" (by decide) (by decide)

/-- Where the draft of a place stands. -/
def draftPlace (place : Place) : Place := place.beside ".tmp" (by decide) (by decide)

theorem path_lockPlace (place : Place) : (lockPlace place).path = lockPath place.path :=
  (String.append_assoc ..).symm

theorem path_draftPlace (place : Place) : (draftPlace place).path = draftPath place.path :=
  (String.append_assoc ..).symm

theorem names_lockPlace_ne (place : Place) : (lockPlace place).names ≠ place.names := by
  refine Place.names_ne_of_name_ne rfl ?_
  simp [lockPlace, Place.beside]

theorem names_draftPlace_ne (place : Place) : (draftPlace place).names ≠ place.names := by
  refine Place.names_ne_of_name_ne rfl ?_
  simp [draftPlace, Place.beside]

theorem names_lockPlace_ne_draftPlace (place : Place) :
    (lockPlace place).names ≠ (draftPlace place).names := by
  refine Place.names_ne_of_name_ne rfl ?_
  simp [lockPlace, draftPlace, Place.beside]

/-- A tree with some content at a place, or without any: no file stands in the way of the place, and
nothing stands where a commit puts its lock and its draft. -/
structure Keeps (place : Place) (tree : FileTree) (content? : Option ByteArray) : Prop where
  node : tree.node? place.names = content?.map .file
  passable : tree.Passable place.directory
  through : content?.isSome → tree.Through place.directory
  lock : tree.node? (lockPlace place).names ≠ some .directory
  draft : tree.node? (draftPlace place).names = none

section

variable {place : Place} {sandbox : Sandbox} {tree after : FileTree} {content? : Option ByteArray}

theorem Keeps.not_directory (h : Keeps place tree content?) :
    tree.node? place.names ≠ some .directory := by
  rw [h.node]
  cases content? with
  | none => nofun
  | some content => nofun

/-- What is kept at a place depends on what stands there, beside it and above it. -/
theorem keeps_of_nodes (hthrough : tree.Through place.directory)
    (habove : ∀ above, above <+: place.directory → after.node? above = tree.node? above)
    (hnode : after.node? place.names = content?.map .file)
    (hlock : after.node? (lockPlace place).names ≠ some .directory)
    (hdraft : after.node? (draftPlace place).names = none) :
    Keeps place after content? ∧ after.Through place.directory := by
  have hafter : after.Through place.directory := fun above hon =>
    (habove above hon).trans (hthrough above hon)
  exact ⟨⟨hnode, hafter.passable, fun _ => hafter, hlock, hdraft⟩, hafter⟩

/-! ## Reading -/

/-- The snapshot that some content stands for. -/
def stored (path : String) : Option ByteArray → Except StoreError Versioned
  | none => .ok .unwritten
  | some content => ofContent path content

theorem Keeps.read (h : Keeps place tree content?) :
    tree.read place.path = content?.elim (.error FileTree.missing) .ok := by
  cases content? with
  | none => exact Place.read_of_none h.passable h.node
  | some content => exact Place.read_of_through (h.through rfl) h.node

theorem run_load (h : Keeps place sandbox.tree content?) :
    sandbox.run (load place.path) = (some (stored place.path content?), sandbox) := by
  have hread : sandbox.run (read place.path) = (some (sandbox.tree.read place.path), sandbox) := rfl
  rw [load, Sandbox.run_bind, hread, h.read]
  cases content? with
  | none => rfl
  | some content => rfl

/-! ## Writing -/

/-- Makes the directory in which a file is to stand. -/
def makeRoom (path : String) : ExceptT StoreError Run Unit :=
  match Path.directoryOf? path with
  | some directory => attempt directory (makeDirectory directory)
  | none => pure ()

/-- Replaces the state, holding the lock. -/
def underLock (path : String) (expected : UInt64) (state : PersistedState) :
    ExceptT StoreError Run UInt64 := do
  attempt (lockPath path) (lock (lockPath path))
  let result ← ExceptT.lift (replace path expected state).run
  ExceptT.lift (unlock (lockPath path))
  ExceptT.mk (pure result)

theorem commit_eq (path : String) (expected : UInt64) (state : PersistedState) :
    commit path expected state = (do makeRoom path; underLock path expected state).run := by
  unfold commit makeRoom
  cases Path.directoryOf? path with
  | none => rfl
  | some directory => rfl

theorem run_makeRoom (h : Keeps place sandbox.tree content?) :
    ∃ after, sandbox.run (makeRoom place.path).run = (some (.ok ()), after)
      ∧ Keeps place after.tree content? ∧ after.tree.Through place.directory := by
  have hdirectory := place.names_directoryOf?
  unfold makeRoom
  cases hpath : Path.directoryOf? place.path with
  | none =>
    rw [hpath] at hdirectory
    exact ⟨sandbox, rfl, h, hdirectory ▸ FileTree.through_nil sandbox.tree⟩
  | some directory =>
    rw [hpath] at hdirectory
    obtain ⟨after, hmade, hthrough, hnodes⟩ := Place.makeAlong_directory h.passable
    have hmake : sandbox.tree.makeDirectory directory = .ok after := by
      rw [FileTree.makeDirectory, hdirectory.2, hdirectory.1]
      exact hmade
    -- The places in the directory are not on the way to it, so nothing changes there.
    have hplace : ∀ other : Place, other.directory = place.directory →
        after.node? other.names = sandbox.tree.node? other.names := by
      intro other hother
      refine hnodes other.names other.slashless_names fun hon => ?_
      exact other.names_ne_of_above (hother ▸ hon) rfl
    refine ⟨_, run_attempt directory rfl hmake, ?_, hthrough⟩
    exact {
      node := (hplace place rfl).trans h.node
      passable := hthrough.passable
      through := fun _ => hthrough
      lock := (hplace (lockPlace place) rfl).symm ▸ h.lock
      draft := (hplace (draftPlace place) rfl).trans h.draft }

theorem run_lock (h : Keeps place sandbox.tree content?)
    (hthrough : sandbox.tree.Through place.directory) :
    ∃ after, sandbox.run (attempt (lockPath place.path) (lock (lockPath place.path))).run
        = (some (.ok ()), after)
      ∧ Keeps place after.tree content? ∧ after.tree.Through place.directory := by
  obtain ⟨after, hafter, hnodes⟩ := @Place.modify_of_through (lockPlace place) _ hthrough h.lock
    (·.getD ByteArray.empty)
  rw [path_lockPlace] at hafter
  refine ⟨_, run_attempt _ rfl hafter, keeps_of_nodes hthrough ?_ ?_ ?_ ?_⟩
  · exact fun above hon => Place.node?_above rfl hnodes hon
  · rw [hnodes _ place.slashless_names, if_neg (names_lockPlace_ne place), h.node]
  · rw [hnodes _ (lockPlace place).slashless_names, if_pos rfl]
    nofun
  · rw [hnodes _ (draftPlace place).slashless_names, if_neg (names_lockPlace_ne_draftPlace place),
      h.draft]

/-- A document that is written beside the file and moved over it replaces its content, and leaves
nothing beside it. -/
theorem run_writeDraft_rename (h : Keeps place sandbox.tree content?)
    (hthrough : sandbox.tree.Through place.directory) (content : ByteArray) :
    ∃ written moved, sandbox.run (attempt (draftPath place.path)
          (write (draftPath place.path) content)).run = (some (.ok ()), written)
      ∧ written.run (attempt place.path (rename (draftPath place.path) place.path)).run
          = (some (.ok ()), moved)
      ∧ Keeps place moved.tree (some content) := by
  have hempty : sandbox.tree.node? (draftPlace place).names ≠ some .directory := by
    rw [h.draft]
    nofun
  obtain ⟨written, hwritten, hdrafted⟩ := @Place.modify_of_through (draftPlace place) _ hthrough
    hempty fun _ => content
  have hdraft : written.node? (draftPlace place).names = some (.file content) := by
    rw [hdrafted _ (draftPlace place).slashless_names, if_pos rfl]
  have hold : written.node? place.names = sandbox.tree.node? place.names := by
    rw [hdrafted _ place.slashless_names, if_neg (names_draftPlace_ne place)]
  have habove : ∀ above, above <+: place.directory →
      written.node? above = sandbox.tree.node? above :=
    fun above hon => Place.node?_above rfl hdrafted hon
  have hway : written.Through place.directory := fun above hon =>
    (habove above hon).trans (hthrough above hon)
  obtain ⟨moved, hmoved, hnodes⟩ := @Place.rename_of_through place _ (draftPlace place) _ rfl hway
    hdraft (hold ▸ h.not_directory)
  rw [path_draftPlace] at hwritten hmoved
  refine ⟨_, _, run_attempt _ rfl hwritten, run_attempt _ rfl hmoved,
    (keeps_of_nodes hway ?_ ?_ ?_ ?_).1⟩
  · intro above hon
    rw [hnodes above (place.slashless_of_above hon), if_neg (place.names_ne_of_above hon),
      if_neg ((draftPlace place).names_ne_of_above hon)]
  · rw [hnodes _ place.slashless_names, if_pos rfl]
    rfl
  · rw [hnodes _ (lockPlace place).slashless_names, if_neg (names_lockPlace_ne place).symm,
      if_neg (names_lockPlace_ne_draftPlace place).symm,
      hdrafted _ (lockPlace place).slashless_names,
      if_neg (names_lockPlace_ne_draftPlace place).symm]
    exact h.lock
  · rw [hnodes _ (draftPlace place).slashless_names, if_neg (names_draftPlace_ne place).symm,
      if_pos rfl]

/-- What comes of a commit, and the content after it. -/
def afterCommit (path : String) (expected : UInt64) (state : PersistedState)
    (content? : Option ByteArray) : Except StoreError UInt64 × Option ByteArray :=
  match stored path content? with
  | .ok current =>
    if current.revision = expected then
      (.ok (expected + 1), some (document ⟨expected + 1, state⟩).toUTF8)
    else (.error (.conflict expected current.revision), content?)
  | .error e => (.error e, content?)

theorem run_replace (h : Keeps place sandbox.tree content?)
    (hthrough : sandbox.tree.Through place.directory) (expected : UInt64) (state : PersistedState) :
    ∃ after, sandbox.run (replace place.path expected state).run
        = (some (afterCommit place.path expected state content?).1, after)
      ∧ Keeps place after.tree (afterCommit place.path expected state content?).2 := by
  have hload : sandbox.run (ExceptT.mk (load place.path)).run
      = (some (stored place.path content?), sandbox) := run_load h
  unfold replace afterCommit
  cases hstored : stored place.path content? with
  | error e =>
    rw [hstored] at hload
    exact ⟨sandbox, Sandbox.run_bind_error hload _, h⟩
  | ok current =>
    rw [hstored] at hload
    rw [Sandbox.run_bind_ok hload]
    simp only
    by_cases hcurrent : current.revision = expected
    · rw [if_pos hcurrent, if_pos hcurrent]
      obtain ⟨written, moved, hwrite, hrename, hkeeps⟩ :=
        run_writeDraft_rename h hthrough (document ⟨expected + 1, state⟩).toUTF8
      rw [Sandbox.run_bind_ok hwrite, Sandbox.run_bind_ok hrename]
      exact ⟨moved, rfl, hkeeps⟩
    · rw [if_neg hcurrent, if_neg hcurrent]
      exact ⟨sandbox, rfl, h⟩

theorem run_underLock (h : Keeps place sandbox.tree content?)
    (hthrough : sandbox.tree.Through place.directory) (expected : UInt64) (state : PersistedState) :
    ∃ after, sandbox.run (underLock place.path expected state).run
        = (some (afterCommit place.path expected state content?).1, after)
      ∧ Keeps place after.tree (afterCommit place.path expected state content?).2 := by
  obtain ⟨locked, hlock, hkeeps, hready⟩ := run_lock h hthrough
  obtain ⟨after, hreplace, hafter⟩ := run_replace hkeeps hready expected state
  have hlift : locked.run (ExceptT.lift (replace place.path expected state).run
        : ExceptT StoreError Run _).run
      = (some (.ok (afterCommit place.path expected state content?).1), after) := by
    rw [ExceptT.run_lift, map_eq_pure_bind, Sandbox.run_bind, hreplace]
    rfl
  have hunlock : after.run (ExceptT.lift (unlock (lockPath place.path))
      : ExceptT StoreError Run _).run = (some (.ok ()), after) := rfl
  refine ⟨after, ?_, hafter⟩
  rw [underLock, Sandbox.run_bind_ok hlock, Sandbox.run_bind_ok hlift, Sandbox.run_bind_ok hunlock]
  rfl

theorem run_commit (h : Keeps place sandbox.tree content?) (expected : UInt64)
    (state : PersistedState) :
    ∃ after, sandbox.run (commit place.path expected state)
        = (some (afterCommit place.path expected state content?).1, after)
      ∧ Keeps place after.tree (afterCommit place.path expected state content?).2 := by
  obtain ⟨ready, hready, hkeeps, hthrough⟩ := run_makeRoom h
  rw [commit_eq, Sandbox.run_bind_ok hready]
  exact run_underLock hkeeps hthrough expected state

end

end FileStore

end Blocklist
