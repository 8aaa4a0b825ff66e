import Blocklist.Override.Environment

set_option autoImplicit false

/-! # Surroundings that disturb

What a program of the overrides meets when calls may go wrong. A `Regime` says what may happen at a
call, a `World` is what the surroundings hold (the engine and one snapshot of the state) together
with the calls made so far, and `Answers` says which answers a call can get in a world and which
world it leaves. Every answer that an `Environment` gives under a schedule that the regime admits is
one of them (`answers_of_answer`).

Nothing here depends on where a store keeps its snapshot: a `Store.View` says what a store holds, as
long as reading and committing do what they should. -/

namespace Blocklist.Override

/-! ## Stores -/

/-- What a commit is to do with the snapshot that a store holds, whatever kind of store it is. -/
def replace (expected : UInt64) (state : PersistedState) (v : Versioned) :
    Except StoreError UInt64 × Versioned :=
  if v.revision = expected then (.ok (expected + 1), ⟨expected + 1, state⟩)
  else (.error (.conflict expected v.revision), v)

/-- What stores hold, for stores that answer with it and accept what is derived from it. -/
structure Store.View where
  Holds : Store → Versioned → Prop
  load : ∀ {store v}, Holds store v → store.load.1 = .ok v ∧ Holds store.load.2 v
  commit : ∀ {store v}, Holds store v → ∀ expected state,
    (store.commit expected state).1 = (replace expected state v).1
      ∧ Holds (store.commit expected state).2 (replace expected state v).2

/-- A store holds one snapshot only. -/
theorem Store.View.holds_unique (view : Store.View) {store : Store} {v v' : Versioned}
    (h : view.Holds store v) (h' : view.Holds store v') : v = v' :=
  Except.ok.inj ((view.load h).1.symm.trans (view.load h').1)

/-- A store in memory counts its revision up from the current one, which is the expected one. -/
theorem commit_memory (v : Versioned) (expected : UInt64) (state : PersistedState) :
    Store.commit expected state (.memory ⟨v⟩)
      = ((replace expected state v).1, .memory ⟨(replace expected state v).2⟩) := by
  simp only [Store.commit, MemoryStore.commit, replace]
  by_cases hcurrent : v.revision = expected
  · simp [hcurrent]
  · simp [hcurrent]

/-- What stores in memory hold. -/
def Store.View.memory : Store.View where
  Holds store v := store = .memory ⟨v⟩
  load h := by subst h; exact ⟨rfl, rfl⟩
  commit h expected state := by
    subst h
    rw [commit_memory]
    exact ⟨rfl, rfl⟩

/-- The snapshot after somebody else has changed the state. -/
def changed (change : PersistedState → PersistedState) (v : Versioned) : Versioned :=
  ⟨v.revision + 1, change v.state⟩

/-- A commit that is derived from the current revision replaces the state. -/
theorem replace_current (state : PersistedState) (v : Versioned) :
    replace v.revision state v = (.ok (v.revision + 1), ⟨v.revision + 1, state⟩) := by
  simp [replace]

/-- Somebody else has moved the revision, so a commit derived from the one before finds a
conflict. -/
theorem replace_changed (change : PersistedState → PersistedState) (state : PersistedState)
    (v : Versioned) :
    replace v.revision state (changed change v)
      = (.error (.conflict v.revision (v.revision + 1)), changed change v) := by
  have hmoved : v.revision + 1 ≠ v.revision := by grind
  simp [replace, changed, hmoved]

theorem Store.View.holds_change (view : Store.View) {store : Store} {v : Versioned}
    (h : view.Holds store v) (change : PersistedState → PersistedState) :
    view.Holds (store.change change).2 (changed change v) := by
  obtain ⟨hload, hheld⟩ := view.load h
  have hchange : (store.change change).2
      = (store.load.2.commit v.revision (change v.state)).2 := by
    rw [Store.change]
    generalize store.load = answer at hload ⊢
    obtain ⟨result, after⟩ := answer
    subst hload
    rfl
  rw [hchange]
  -- What was just read is the current revision, so the other commit finds no conflict.
  have hcommit := (view.commit hheld v.revision (change v.state)).2
  simpa [replace, changed] using hcommit

/-! ## Regimes -/

/-- What may happen at the calls of a program. -/
structure Regime where
  /-- Calls fail without effect. -/
  fails : Prop
  /-- Calls stay without an answer. -/
  hangs : Prop
  /-- What somebody else does to the state just before the store answers. -/
  outside : (PersistedState → PersistedState) → Prop

namespace Regime

/-- Nothing goes wrong. -/
def calm : Regime := ⟨False, False, fun _ => False⟩

/-- Calls fail without effect, or lose to somebody who commits the state once more as it is; and if
`hangs`, they may stay without an answer. -/
def rough (hangs : Prop) : Regime := ⟨True, hangs, fun change => ∀ state, change state = state⟩

/-- Anything may happen. -/
def wild : Regime := ⟨True, True, fun _ => True⟩

/-- Nobody else changes the state, though its revision may move. -/
def Quiet (regime : Regime) : Prop :=
  ∀ change, regime.outside change → ∀ state, change state = state

/-- A call may go wrong although it is answered. -/
def Disturbs (regime : Regime) : Prop :=
  regime.fails ∨ ∃ change, regime.outside change

/-- What a regime allows to happen at a call. -/
def Allows (regime : Regime) : Fault → Prop
  | .none => True
  | .unavailable | .rejected => regime.fails
  | .hang => regime.hangs
  | .outside change => regime.outside change

/-- Nothing happens by a schedule but what a regime allows. -/
def Admits (regime : Regime) (schedule : Schedule) : Prop :=
  ∀ kind, ∀ fault ∈ schedule kind, regime.Allows fault

theorem quiet_calm : calm.Quiet := fun _ h => h.elim

theorem quiet_rough (hangs : Prop) : (rough hangs).Quiet := fun _ h => h

theorem not_disturbs_calm : ¬ calm.Disturbs := by
  rintro (h | ⟨_, h⟩)
  · exact h
  · exact h

theorem admits_faultless (regime : Regime) : regime.Admits .faultless := by
  intro kind fault h
  cases h

theorem admits_wild (schedule : Schedule) : wild.Admits schedule := by
  intro kind fault _
  cases fault <;> trivial

theorem Admits.set {regime : Regime} {schedule : Schedule} (h : regime.Admits schedule)
    (kind : CallKind) {faults : List Fault} (hfaults : ∀ fault ∈ faults, regime.Allows fault) :
    regime.Admits (schedule.set kind faults) := by
  intro k fault hfault
  rw [Schedule.set] at hfault
  split at hfault
  · exact hfaults fault hfault
  · exact h k fault hfault

theorem Admits.next {regime : Regime} {schedule : Schedule} (h : regime.Admits schedule)
    (kind : CallKind) :
    regime.Allows (schedule.next kind).1 ∧ regime.Admits (schedule.next kind).2 := by
  unfold Schedule.next
  split
  · exact ⟨trivial, h⟩
  · rename_i fault rest hfaults
    refine ⟨h kind fault (by rw [hfaults]; exact List.mem_cons_self ..), ?_⟩
    intro k f hf
    simp only [Schedule.set] at hf
    split at hf
    · exact h kind f (by rw [hfaults]; exact List.mem_cons_of_mem _ hf)
    · exact h k f hf

end Regime

/-! ## Worlds -/

/-- A call and what answered it; nothing, if it hangs. -/
structure Exchange where
  call : Call
  reply : Option call.Answer

/-- Whether a reply is an error. -/
def isFailure {ε α : Type} : Option (Except ε α) → Bool
  | some (.error _) => true
  | _ => false

namespace Exchange

/-- Whether a call on the engine or the store was answered with an error. -/
def failed : Exchange → Bool
  | ⟨.enableRuleset _, reply⟩ => isFailure reply
  | ⟨.disableRuleset _, reply⟩ => isFailure reply
  | ⟨.addRules _, reply⟩ => isFailure reply
  | ⟨.removeRules _, reply⟩ => isFailure reply
  | ⟨.enabledRulesets, reply⟩ => isFailure reply
  | ⟨.load, reply⟩ => isFailure reply
  | ⟨.commit _ _, reply⟩ => isFailure reply
  | ⟨.clock, _⟩ => false
  | ⟨.warn _, _⟩ => false

/-- Whether a call was one on the store. -/
def onStore (x : Exchange) : Bool :=
  match x.call with
  | .load | .commit _ _ => true
  | _ => false

end Exchange

/-- What the surroundings hold, and the calls so far, last first. -/
structure World where
  engine : Engine
  stored : Versioned
  log : List Exchange

namespace World

/-- The state that the store holds. -/
abbrev state (w : World) : PersistedState := w.stored.state

/-- The world with one more call in its log. -/
def note (w : World) (x : Exchange) : World :=
  { w with log := x :: w.log }

end World

/-! ## Answers -/

/-- The answers to a call on the engine. -/
inductive EngineAnswers {α : Type} (regime : Regime)
    (act : Engine → Except EngineError α × Engine) (w : World) :
    Option (Except EngineError α) → World → Prop where
  | hang : regime.hangs → EngineAnswers regime act w none w
  | fail (e : EngineError) : regime.fails → EngineAnswers regime act w (some (.error e)) w
  | done : EngineAnswers regime act w (some (act w.engine).1) { w with engine := (act w.engine).2 }

/-- The answers to a call on the store. -/
inductive StoreAnswers {α : Type} (regime : Regime)
    (act : Versioned → Except StoreError α × Versioned) (w : World) :
    Option (Except StoreError α) → World → Prop where
  | hang : regime.hangs → StoreAnswers regime act w none w
  | fail (e : StoreError) : regime.fails → StoreAnswers regime act w (some (.error e)) w
  | done : StoreAnswers regime act w (some (act w.stored).1) { w with stored := (act w.stored).2 }
  | outside {change : PersistedState → PersistedState} : regime.outside change →
      StoreAnswers regime act w (some (act (changed change w.stored)).1)
        { w with stored := (act (changed change w.stored)).2 }

/-- The answers that a call can get in a world, and the world after each. -/
def Answers (regime : Regime) (w : World) : (c : Call) → Option c.Answer → World → Prop
  | .enableRuleset ruleset => EngineAnswers regime (·.switchRuleset ruleset true) w
  | .disableRuleset ruleset => EngineAnswers regime (·.switchRuleset ruleset false) w
  | .addRules rules => EngineAnswers regime (·.addSessionRules rules) w
  | .removeRules ids => EngineAnswers regime (fun engine => (.ok (), engine.removeRules ids)) w
  | .enabledRulesets => EngineAnswers regime (fun engine => (.ok engine.enabledRulesets, engine)) w
  | .load => StoreAnswers regime (fun v => (.ok v, v)) w
  | .commit expected state => StoreAnswers regime (replace expected state) w
  | .clock => fun reply after => (∃ now, reply = some now) ∧ after = w
  | .warn _ => fun reply after => reply = some () ∧ after = w

/-! ## Environments show worlds -/

/-- An environment shows a world: it has its engine, its store holds its snapshot, and its schedule
has nothing in store that the regime does not allow. -/
structure Shows (view : Store.View) (regime : Regime) (env : Environment) (w : World) : Prop where
  engine : env.engine = w.engine
  held : view.Holds env.store w.stored
  admits : regime.Admits env.schedule

section

variable {view : Store.View} {regime : Regime} {env : Environment} {w : World}

theorem engineAnswers_of_onEngine {α : Type} (h : Shows view regime env w) (kind : CallKind)
    (event : Event) (act : Engine → Except EngineError α × Engine) :
    ∃ after, EngineAnswers regime act w (Environment.onEngine kind event act env).1 after
      ∧ Shows view regime (Environment.onEngine kind event act env).2 after
      ∧ after.log = w.log := by
  have hnext := h.admits.next kind
  unfold Environment.onEngine
  generalize env.schedule.next kind = next at hnext ⊢
  obtain ⟨fault, schedule⟩ := next
  obtain ⟨hallows, hadmits⟩ := hnext
  have hunchanged : Shows view regime { env.see event with schedule } w :=
    ⟨h.engine, h.held, hadmits⟩
  cases fault with
  | unavailable => exact ⟨w, .fail _ hallows, hunchanged, rfl⟩
  | rejected => exact ⟨w, .fail _ hallows, hunchanged, rfl⟩
  | hang => exact ⟨w, .hang hallows, hunchanged, rfl⟩
  | none | outside =>
    -- Nobody but the manager changes the engine.
    simp only [Environment.see, h.engine]
    exact ⟨{ w with engine := (act w.engine).2 }, .done, ⟨rfl, h.held, hadmits⟩, rfl⟩

theorem storeAnswers_of_onStore {α : Type} (h : Shows view regime env w) (kind : CallKind)
    (act : Store → Except StoreError α × Store)
    (meaning : Versioned → Except StoreError α × Versioned)
    (hact : ∀ {store v}, view.Holds store v →
      (act store).1 = (meaning v).1 ∧ view.Holds (act store).2 (meaning v).2) :
    ∃ after, StoreAnswers regime meaning w (Environment.onStore kind act env).1 after
      ∧ Shows view regime (Environment.onStore kind act env).2 after
      ∧ after.log = w.log := by
  have hnext := h.admits.next kind
  unfold Environment.onStore
  generalize env.schedule.next kind = next at hnext ⊢
  obtain ⟨fault, schedule⟩ := next
  obtain ⟨hallows, hadmits⟩ := hnext
  cases fault with
  | unavailable => exact ⟨w, .fail _ hallows, ⟨h.engine, h.held, hadmits⟩, rfl⟩
  | rejected => exact ⟨w, .fail _ hallows, ⟨h.engine, h.held, hadmits⟩, rfl⟩
  | hang => exact ⟨w, .hang hallows, ⟨h.engine, h.held, hadmits⟩, rfl⟩
  | none =>
    obtain ⟨hreply, hheld⟩ := hact h.held
    refine ⟨{ w with stored := (meaning w.stored).2 }, ?_, ⟨h.engine, hheld, hadmits⟩, rfl⟩
    simp only [hreply]
    exact .done
  | outside change =>
    obtain ⟨hreply, hheld⟩ := hact (view.holds_change h.held change)
    refine ⟨{ w with stored := (meaning (changed change w.stored)).2 }, ?_,
      ⟨h.engine, hheld, hadmits⟩, rfl⟩
    simp only [hreply]
    exact .outside hallows

/-- Whatever an environment answers is an answer in the world that it shows. -/
theorem answers_of_answer (h : Shows view regime env w) (c : Call) :
    ∃ after, Answers regime w c (Environment.answer c env).1 after
      ∧ Shows view regime (Environment.answer c env).2 after
      ∧ after.log = w.log := by
  cases c with
  | enableRuleset ruleset => exact engineAnswers_of_onEngine h ..
  | disableRuleset ruleset => exact engineAnswers_of_onEngine h ..
  | addRules rules => exact engineAnswers_of_onEngine h ..
  | removeRules ids => exact engineAnswers_of_onEngine h ..
  | enabledRulesets => exact engineAnswers_of_onEngine h ..
  | load => exact storeAnswers_of_onStore h .load _ _ view.load
  | commit expected state =>
    exact storeAnswers_of_onStore h .commit _ _ fun hheld => view.commit hheld expected state
  | clock => exact ⟨w, ⟨⟨env.time, rfl⟩, rfl⟩, h, rfl⟩
  | warn warning => exact ⟨w, ⟨rfl, rfl⟩, ⟨h.engine, h.held, h.admits⟩, rfl⟩

/-- The same with the call noted in the world; what an environment shows does not depend on the
log. -/
theorem Shows.exists_answer (h : Shows view regime env w) (c : Call) :
    ∃ after, Answers regime w c (Environment.answer c env).1 after
      ∧ Shows view regime (Environment.answer c env).2
          (after.note ⟨c, (Environment.answer c env).1⟩)
      ∧ after.log = w.log := by
  obtain ⟨after, hanswer, hafter, hlog⟩ := answers_of_answer h c
  exact ⟨after, hanswer, ⟨hafter.engine, hafter.held, hafter.admits⟩, hlog⟩

end

end Blocklist.Override
