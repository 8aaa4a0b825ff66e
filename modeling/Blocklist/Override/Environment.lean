import Blocklist.Machine.FileTree
import Blocklist.Override.Call
import Blocklist.Store.File

set_option autoImplicit false

/-! # Surroundings as values

The engine and the store of a manager, held as a value together with a plan of what goes wrong: for
every kind of call, what happens at its next uses. A call that goes wrong has no effect of its own;
but before a commit somebody else may have changed the state. -/

namespace Blocklist.Override

/-! ## Stores -/

/-- A store of either kind. -/
inductive Store where
  | memory (store : MemoryStore)
  | file (path : String) (sandbox : Machine.Sandbox)

namespace Store

/-- Runs a program on the files of a store. -/
def onFiles {α : Type} (path : String) (p : Machine.Run (Except StoreError α))
    (sandbox : Machine.Sandbox) : Except StoreError α × Store :=
  let (result, sandbox) := sandbox.run p
  (result.getD (.error (.unavailable "stopped")), .file path sandbox)

/-- The state and its revision. -/
def load : Store → Except StoreError Versioned × Store
  | memory store => (.ok store.load, memory store)
  | file path sandbox => onFiles path (FileStore.load path) sandbox

/-- Replaces the state if `expected` is the current revision; answers the new revision. -/
def commit (expected : UInt64) (state : PersistedState) : Store → Except StoreError UInt64 × Store
  | memory store => let (result, store) := store.commit expected state; (result, memory store)
  | file path sandbox => onFiles path (FileStore.commit path expected state) sandbox

/-- Changes the state at whatever revision is current, as somebody else would. -/
def change (store : Store) (f : PersistedState → PersistedState) :
    Except StoreError UInt64 × Store :=
  match store.load with
  | (.ok current, store) => store.commit current.revision (f current.state)
  | (.error e, store) => (.error e, store)

end Store

/-! ## Faults -/

/-- What happens at a call. -/
inductive Fault where
  /-- The call goes through. -/
  | none
  /-- The call fails because nobody is there to answer it. -/
  | unavailable
  /-- The call is refused. -/
  | rejected
  /-- No answer ever comes. -/
  | hang
  /-- Somebody else changes the state first. -/
  | outside (change : PersistedState → PersistedState)

/-- The kinds of calls that can go wrong. -/
inductive CallKind where
  | enableRuleset
  | disableRuleset
  | addRules
  | removeRules
  | enabledRulesets
  | load
  | commit
deriving DecidableEq, Repr

/-- For every kind of call, what happens at its next uses, the next one first. After the last of
them the calls go through. -/
def Schedule := CallKind → List Fault

namespace Schedule

/-- Nothing goes wrong. -/
def faultless : Schedule := fun _ => []

/-- The schedule with the faults of one kind replaced. -/
def set (schedule : Schedule) (kind : CallKind) (faults : List Fault) : Schedule :=
  fun k => if k = kind then faults else schedule k

/-- What happens at the next call of a kind, and the schedule after it. -/
def next (schedule : Schedule) (kind : CallKind) : Fault × Schedule :=
  match schedule kind with
  | [] => (.none, schedule)
  | fault :: rest => (fault, schedule.set kind rest)

end Schedule

/-! ## Environments -/

/-- What an observer sees of the calls: those on the engine, whatever comes of them, and the
warnings. -/
inductive Event where
  | enableRuleset (ruleset : String)
  | disableRuleset (ruleset : String)
  | addRules (ids : List UInt32)
  | removeRules (ids : List UInt32)
  | enabledRulesets
  | warning (w : Warning)
deriving DecidableEq, Repr

/-- The surroundings of a manager. -/
structure Environment where
  engine : Engine
  store : Store
  /-- Milliseconds since 1970. -/
  time : UInt64
  schedule : Schedule
  /-- What was seen so far, last first. -/
  events : List Event

namespace Environment

/-- The environment with one more event. -/
def see (env : Environment) (event : Event) : Environment :=
  { env with events := event :: env.events }

/-- Answers a call on the engine: notes it, lets the schedule decide, and lets the engine do it if
nothing goes wrong. -/
def onEngine {α : Type} (kind : CallKind) (event : Event)
    (act : Engine → Except EngineError α × Engine) (env : Environment) :
    Option (Except EngineError α) × Environment :=
  let (fault, schedule) := env.schedule.next kind
  let env := { env.see event with schedule }
  match fault with
  | .unavailable => (some (.error (.unavailable "injected")), env)
  | .rejected => (some (.error (.rejected "injected")), env)
  | .hang => (none, env)
  | .none | .outside _ =>
    let (result, engine) := act env.engine
    (some result, { env with engine })

/-- Answers a call on the store: lets the schedule decide, and lets the store do it if nothing goes
wrong, after the change of somebody else if there is one. -/
def onStore {α : Type} (kind : CallKind) (act : Store → Except StoreError α × Store)
    (env : Environment) : Option (Except StoreError α) × Environment :=
  let (fault, schedule) := env.schedule.next kind
  let env := { env with schedule }
  let answer := fun (store : Store) =>
    let (result, store) := act store
    (some result, { env with store })
  match fault with
  | .unavailable | .rejected => (some (.error (.unavailable "injected")), env)
  | .hang => (none, env)
  | .outside change => answer (env.store.change change).2
  | .none => answer env.store

/-- Answers a call. -/
def answer : (c : Call) → Environment → Option c.Answer × Environment
  | .enableRuleset ruleset, env =>
    onEngine .enableRuleset (.enableRuleset ruleset) (·.switchRuleset ruleset true) env
  | .disableRuleset ruleset, env =>
    onEngine .disableRuleset (.disableRuleset ruleset) (·.switchRuleset ruleset false) env
  | .addRules rules, env =>
    onEngine .addRules (.addRules (rules.map Rule.id)) (·.addSessionRules rules) env
  | .removeRules ids, env =>
    onEngine .removeRules (.removeRules ids) (fun engine => (.ok (), engine.removeRules ids)) env
  | .enabledRulesets, env =>
    onEngine .enabledRulesets .enabledRulesets (fun engine => (.ok engine.enabledRulesets, engine))
      env
  | .load, env => onStore .load Store.load env
  | .commit expected state, env => onStore .commit (Store.commit expected state) env
  | .clock, env => (some env.time, env)
  | .warn w, env => (some (), env.see (.warning w))

/-- Runs a program. There is no result if it gets stuck. -/
def run {α : Type} (p : Run α) (env : Environment) : Option α × Environment :=
  (p.interpret (I := interface) (m := StateM Environment) fun c => answer c) env

end Environment

end Blocklist.Override
