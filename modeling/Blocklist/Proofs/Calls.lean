import Blocklist.Override.Restore
import Blocklist.Proofs.Engine
import Blocklist.Proofs.Guarantee

set_option autoImplicit false

/-! # What a single call does

One rule for each call of the overrides, and one for `update`, the reading and replacing of the
state: which worlds the call can leave when it succeeds, when it fails and when it hangs. The rules
speak about the engine and the state (`World.Becomes`); the log is only said to grow, and to hold
what matters later in the order in which it happened (`World.Notes`, `World.Made`). Somebody else
may move the revision of the state (`Regime.Quiet`), but not change it. -/

namespace Blocklist.Override

variable {regime : Regime} {halted : World → Prop} {w : World}

/-! ## Changes of worlds -/

/-- A world in which engine and state have become the given ones and nothing was forgotten. -/
structure World.Becomes (w : World) (engine : Engine) (state : PersistedState) (after : World) :
    Prop where
  engine : after.engine = engine
  state : after.state = state
  log : w.log.Sublist after.log

/-- A world in which engine and state are as they were. -/
abbrev World.Stays (w after : World) : Prop :=
  w.Becomes w.engine w.state after

theorem World.Becomes.refl (w : World) : w.Stays w :=
  ⟨rfl, rfl, .refl _⟩

theorem World.Becomes.trans {between after : World} {engine engine' : Engine}
    {state state' : PersistedState} (h : w.Becomes engine state between)
    (h' : between.Becomes engine' state' after) : w.Becomes engine' state' after :=
  ⟨h'.engine, h'.state, h.log.trans h'.log⟩

/-- What follows on a world that stayed is a change of the world before. -/
theorem World.Becomes.then_stays {between after : World} {engine : Engine}
    {state : PersistedState} (h : w.Becomes engine state between) (h' : between.Stays after) :
    w.Becomes engine state after :=
  ⟨h'.engine.trans h.engine, h'.state.trans h.state, h.log.trans h'.log⟩

theorem World.becomes_note (w : World) (engine : Engine) (stored : Versioned) (x : Exchange) :
    w.Becomes engine stored.state (World.note ⟨engine, stored, w.log⟩ x) :=
  ⟨rfl, rfl, List.sublist_cons_self ..⟩

/-! ## Calls in order -/

/-- The calls were made in this order, the last one first; others may stand between them. -/
def World.Made (w : World) (calls : List Exchange) : Prop :=
  calls.Sublist w.log

/-- After all that was noted in the world `w`, the call `x` was made. -/
def World.Notes (w : World) (x : Exchange) (after : World) : Prop :=
  (x :: w.log).Sublist after.log

/-- A call on the store or the engine failed. -/
def World.Failed (w : World) : Prop :=
  ∃ x ∈ w.log, x.failed = true

/-- After all that was noted in the world `w`, a call on the store failed. -/
def World.FailsOnStore (w after : World) : Prop :=
  ∃ x, x.onStore = true ∧ x.failed = true ∧ w.Notes x after

section

variable {between after : World} {engine : Engine} {state : PersistedState} {x : Exchange}
  {calls : List Exchange}

theorem World.notes_note (w : World) (engine : Engine) (stored : Versioned) (x : Exchange) :
    w.Notes x (World.note ⟨engine, stored, w.log⟩ x) :=
  .refl _

theorem World.Made.becomes (h : w.Made calls) (h' : w.Becomes engine state after) :
    after.Made calls :=
  h.trans h'.log

theorem World.Notes.becomes (h : w.Notes x between) (h' : between.Becomes engine state after) :
    w.Notes x after :=
  h.trans h'.log

theorem World.Becomes.notes (h : w.Becomes engine state between) (h' : between.Notes x after) :
    w.Notes x after :=
  (h.log.cons_cons x).trans h'

/-- What is noted comes after the calls that were made before. -/
theorem World.Notes.made_cons (h : w.Notes x after) (hcalls : w.Made calls) :
    after.Made (x :: calls) :=
  (hcalls.cons_cons x).trans h

theorem World.Notes.made (h : w.Notes x after) : after.Made [x] :=
  h.made_cons (List.nil_sublist _)

theorem World.Made.mem (h : w.Made [x]) : x ∈ w.log :=
  List.singleton_sublist.1 h

theorem World.Notes.failed (h : w.Notes x after) (hfailed : x.failed = true) : after.Failed :=
  ⟨x, h.made.mem, hfailed⟩

theorem World.Failed.becomes (h : w.Failed) (h' : w.Becomes engine state after) :
    after.Failed := by
  obtain ⟨x, hx, hfailed⟩ := h
  exact ⟨x, h'.log.subset hx, hfailed⟩

theorem World.FailsOnStore.failed (h : w.FailsOnStore after) : after.Failed := by
  obtain ⟨x, -, hfailed, hnotes⟩ := h
  exact hnotes.failed hfailed

theorem World.FailsOnStore.becomes (h : w.FailsOnStore between)
    (h' : between.Becomes engine state after) : w.FailsOnStore after := by
  obtain ⟨x, hstore, hfailed, hnotes⟩ := h
  exact ⟨x, hstore, hfailed, hnotes.becomes h'⟩

theorem World.Becomes.failsOnStore (h : w.Becomes engine state between)
    (h' : between.FailsOnStore after) : w.FailsOnStore after := by
  obtain ⟨x, hstore, hfailed, hnotes⟩ := h'
  exact ⟨x, hstore, hfailed, h.notes hnotes⟩

end

/-! ## Calls in general -/

@[simp]
theorem mapError_ok {ε ε' α : Type} (f : ε → ε') (a : α) :
    (Except.ok a : Except ε α).mapError f = .ok a := rfl

/-- Asking the table is no call. -/
theorem guarantees_onTable {α : Type} (result : Except IdError α)
    (post : Except OverrideError α → World → Prop) :
    Guarantees regime halted (onTable result).run w post ↔ post (result.mapError .ids) w := Iff.rfl

theorem guarantees_ask (c : Call) {post : c.Answer → World → Prop}
    (h : ∀ reply after, Answers regime w c reply after →
      match reply with
      | some a => post a (after.note ⟨c, reply⟩)
      | none => halted (after.note ⟨c, none⟩)) :
    Guarantees regime halted (Program.ask (I := interface) c) w post := by
  intro reply after hanswer
  have hreply := h reply after hanswer
  cases reply with
  | some a => exact hreply
  | none => exact hreply

theorem guarantees_onEngine {α : Type} (call : Run (Except EngineError α))
    (post : Except OverrideError α → World → Prop) :
    Guarantees regime halted (onEngine call).run w post
      ↔ Guarantees regime halted call w fun result => post (result.mapError .engine) := by
  show Guarantees regime halted (call >>= fun result => pure (result.mapError .engine)) w post ↔ _
  rw [guarantees_bind]
  exact Iff.rfl

theorem guarantees_onStore {α : Type} (call : Run (Except StoreError α))
    (post : Except OverrideError α → World → Prop) :
    Guarantees regime halted (onStore call).run w post
      ↔ Guarantees regime halted call w fun result => post (result.mapError .ofStore) := by
  show Guarantees regime halted (call >>= fun result => pure (result.mapError .ofStore)) w post ↔ _
  rw [guarantees_bind]
  exact Iff.rfl

/-! ## Time and warnings -/

theorem guarantees_clock {post : UInt64 → World → Prop}
    (h : ∀ now after, w.Stays after → post now after) :
    Guarantees regime halted clock w post := by
  refine guarantees_ask .clock ?_
  rintro reply after ⟨⟨now, rfl⟩, rfl⟩
  exact h now _ (after.becomes_note ..)

theorem guarantees_warn {warning : Warning} {post : Unit → World → Prop}
    (h : ∀ after, w.Stays after → post () after) :
    Guarantees regime halted (warn warning) w post := by
  refine guarantees_ask (.warn warning) ?_
  rintro reply after ⟨rfl, rfl⟩
  exact h _ (after.becomes_note ..)

/-! ## Calls on the engine -/

theorem guarantees_removeRules {ids : List UInt32} {post : Except EngineError Unit → World → Prop}
    (hok : ∀ after, w.Becomes (w.engine.removeRules ids) w.state after →
      w.Notes ⟨.removeRules ids, some (.ok ())⟩ after → post (.ok ()) after)
    (herror : ∀ e after, regime.fails → w.Stays after →
      w.Notes ⟨.removeRules ids, some (.error e)⟩ after → post (.error e) after)
    (hhalted : ∀ after, regime.hangs → w.Stays after → halted after) :
    Guarantees regime halted (removeRules ids) w post := by
  refine guarantees_ask (.removeRules ids) fun reply after hanswer => ?_
  cases hanswer with
  | hang hh => exact hhalted _ hh (w.becomes_note ..)
  | fail e hf => exact herror e _ hf (w.becomes_note ..) (w.notes_note ..)
  | done => exact hok _ (w.becomes_note ..) (w.notes_note ..)

theorem guarantees_addRules {rules : List Rule} {post : Except EngineError Unit → World → Prop}
    (hok : ∀ engine after, w.engine.addRules rules = .ok engine →
      w.Becomes engine w.state after → w.Notes ⟨.addRules rules, some (.ok ())⟩ after →
      post (.ok ()) after)
    (herror : ∀ e after, (regime.fails ∨ w.engine.addRules rules = .error e) → w.Stays after →
      w.Notes ⟨.addRules rules, some (.error e)⟩ after → post (.error e) after)
    (hhalted : ∀ after, regime.hangs → w.Stays after → halted after) :
    Guarantees regime halted (addRules rules) w post := by
  refine guarantees_ask (.addRules rules) fun reply after hanswer => ?_
  cases hanswer with
  | hang hh => exact hhalted _ hh (w.becomes_note ..)
  | fail e hf => exact herror e _ (.inl hf) (w.becomes_note ..) (w.notes_note ..)
  | done =>
    rcases w.engine.addSessionRules_cases rules with ⟨engine, hadd, hcall⟩ | ⟨e, hadd, hcall⟩
    · rw [hcall]
      exact hok engine _ hadd (w.becomes_note ..) (w.notes_note ..)
    · rw [hcall]
      exact herror e _ (.inr hadd) (w.becomes_note ..) (w.notes_note ..)

theorem guarantees_enabledRulesets {post : Except EngineError (List String) → World → Prop}
    (hok : ∀ after, w.Stays after → post (.ok w.engine.enabledRulesets) after)
    (herror : ∀ e after, regime.fails → w.Stays after → after.Failed → post (.error e) after)
    (hhalted : ∀ after, regime.hangs → w.Stays after → halted after) :
    Guarantees regime halted enabledRulesets w post := by
  refine guarantees_ask .enabledRulesets fun reply after hanswer => ?_
  cases hanswer with
  | hang hh => exact hhalted _ hh (w.becomes_note ..)
  | fail e hf => exact herror e _ hf (w.becomes_note ..) ⟨_, List.mem_cons_self .., rfl⟩
  | done => exact hok _ (w.becomes_note ..)

/-- The engine with a known ruleset switched. -/
def switched (engine : Engine) (ruleset : String) (on : Bool) : Engine :=
  { engine with rulesets := engine.rulesets.insert ruleset on }

@[simp]
theorem isEnabled_switched (engine : Engine) (ruleset : String) (on : Bool) :
    (switched engine ruleset on).isEnabled ruleset = on := by
  simp [switched, Engine.isEnabled]

/-- Nothing changes if a ruleset is switched to what it is. -/
theorem switched_eq_self {engine : Engine} {ruleset : String} {on : Bool}
    (hknown : engine.rulesets.contains ruleset = true) (h : engine.isEnabled ruleset = on) :
    switched engine ruleset on = engine := by
  refine Engine.ext_rule? (Std.ExtTreeMap.ext_getElem? fun other => ?_) fun _ => rfl
  simp only [switched, Std.ExtTreeMap.getElem?_insert, Std.compare_eq_iff_eq]
  split
  · rename_i heq
    subst heq
    obtain ⟨was, hwas⟩ := Option.isSome_iff_exists.1
      (Std.ExtTreeMap.contains_eq_isSome_getElem?.symm.trans hknown)
    rw [Engine.isEnabled, hwas, Option.getD_some] at h
    rw [hwas, h]
  · rfl

/-- Only the last switch counts. -/
theorem switched_switched (engine : Engine) (ruleset : String) (before on : Bool) :
    switched (switched engine ruleset before) ruleset on = switched engine ruleset on := by
  refine Engine.ext_rule? (Std.ExtTreeMap.ext_getElem? fun other => ?_) fun _ => rfl
  simp only [switched, Std.ExtTreeMap.getElem?_insert]
  split
  · rfl
  · rfl

theorem guarantees_setRuleset {ruleset : String} {on : Bool}
    {post : Except EngineError Unit → World → Prop}
    (hok : ∀ after, w.engine.rulesets.contains ruleset →
      w.Becomes (switched w.engine ruleset on) w.state after → post (.ok ()) after)
    (herror : ∀ e after, regime.fails ∨ ¬ w.engine.rulesets.contains ruleset → w.Stays after →
      after.Failed → post (.error e) after)
    (hhalted : ∀ after, regime.hangs → w.Stays after → halted after) :
    Guarantees regime halted (setRuleset ruleset on) w post := by
  -- Switching on and off are different calls that do the same to the engine.
  cases on with
  | true =>
    refine guarantees_ask (.enableRuleset ruleset) fun reply after hanswer => ?_
    cases hanswer with
    | hang hh => exact hhalted _ hh (w.becomes_note ..)
    | fail e hf => exact herror e _ (.inl hf) (w.becomes_note ..) ⟨_, List.mem_cons_self .., rfl⟩
    | done =>
      rcases w.engine.switchRuleset_cases ruleset true with ⟨hknown, hcall⟩ | ⟨hunknown, hcall⟩
      · rw [hcall]
        exact hok _ hknown (w.becomes_note ..)
      · rw [hcall]
        exact herror _ _ (.inr hunknown) (w.becomes_note ..) ⟨_, List.mem_cons_self .., rfl⟩
  | false =>
    refine guarantees_ask (.disableRuleset ruleset) fun reply after hanswer => ?_
    cases hanswer with
    | hang hh => exact hhalted _ hh (w.becomes_note ..)
    | fail e hf => exact herror e _ (.inl hf) (w.becomes_note ..) ⟨_, List.mem_cons_self .., rfl⟩
    | done =>
      rcases w.engine.switchRuleset_cases ruleset false with ⟨hknown, hcall⟩ | ⟨hunknown, hcall⟩
      · rw [hcall]
        exact hok _ hknown (w.becomes_note ..)
      · rw [hcall]
        exact herror _ _ (.inr hunknown) (w.becomes_note ..) ⟨_, List.mem_cons_self .., rfl⟩

/-! ## Calls on the store -/

/-- Reading leaves the state as it is. -/
theorem guarantees_load (hquiet : regime.Quiet)
    {post : Except OverrideError Versioned → World → Prop}
    (hok : ∀ after, w.Stays after → post (.ok after.stored) after)
    (herror : ∀ e after, regime.Disturbs → w.Stays after → w.FailsOnStore after →
      post (.error e) after)
    (hhalted : ∀ after, regime.hangs → w.Stays after → halted after) :
    Guarantees regime halted load.run w post := by
  refine (guarantees_onStore _ _).2 (guarantees_ask .load fun reply after hanswer => ?_)
  cases hanswer with
  | hang hh => exact hhalted _ hh (w.becomes_note ..)
  | fail e hf =>
    exact herror _ _ (.inl hf) (w.becomes_note ..) ⟨_, rfl, rfl, w.notes_note ..⟩
  | done => exact hok _ (w.becomes_note w.engine w.stored _)
  | @outside change houtside =>
    have hstate : (changed change w.stored).state = w.state := hquiet change houtside w.state
    have hstays := w.becomes_note w.engine (changed change w.stored)
      ⟨.load, some (.ok (changed change w.stored))⟩
    rw [hstate] at hstays
    exact hok _ hstays

/-- Reading the state alone. -/
theorem guarantees_loadState (hquiet : regime.Quiet)
    {post : Except OverrideError PersistedState → World → Prop}
    (hok : ∀ after, w.Stays after → post (.ok w.state) after)
    (herror : ∀ e after, regime.Disturbs → w.Stays after → w.FailsOnStore after →
      post (.error e) after)
    (hhalted : ∀ after, regime.hangs → w.Stays after → halted after) :
    Guarantees regime halted loadState.run w post := by
  rw [loadState, guarantees_attempt_bind]
  refine guarantees_load hquiet (fun after hstays => ?_) herror hhalted
  show post (.ok after.state) after
  rw [hstays.state]
  exact hok after hstays

/-- A commit that is derived from the current revision replaces the state, or leaves it as it is. -/
theorem guarantees_commit (hquiet : regime.Quiet) {expected : UInt64} {state : PersistedState}
    (hexpected : expected = w.stored.revision) {post : Except OverrideError UInt64 → World → Prop}
    (hok : ∀ revision after, w.Becomes w.engine state after → post (.ok revision) after)
    (herror : ∀ e after, regime.Disturbs → w.Stays after → w.FailsOnStore after →
      post (.error e) after)
    (hhalted : ∀ after, regime.hangs → w.Stays after → halted after) :
    Guarantees regime halted (commit expected state).run w post := by
  refine (guarantees_onStore _ _).2
    (guarantees_ask (.commit expected state) fun reply after hanswer => ?_)
  cases hanswer with
  | hang hh => exact hhalted _ hh (w.becomes_note ..)
  | fail e hf =>
    exact herror _ _ (.inl hf) (w.becomes_note ..) ⟨_, rfl, rfl, w.notes_note ..⟩
  | done =>
    subst hexpected
    rw [replace_current]
    exact hok _ _ (w.becomes_note w.engine ⟨w.stored.revision + 1, state⟩ _)
  | @outside change houtside =>
    subst hexpected
    have hstate : (changed change w.stored).state = w.state := hquiet change houtside w.state
    have hstays := w.becomes_note w.engine (changed change w.stored)
      ⟨.commit w.stored.revision state,
        some (.error (.conflict w.stored.revision (w.stored.revision + 1)))⟩
    rw [hstate] at hstays
    rw [replace_changed]
    exact herror _ _ (.inr ⟨change, houtside⟩) hstays ⟨_, rfl, rfl, w.notes_note ..⟩

/-- An update replaces the state by the changed one, stamped with a time, or leaves it as it is. -/
theorem guarantees_update (hquiet : regime.Quiet) {change : PersistedState → PersistedState}
    {post : Except OverrideError UInt64 → World → Prop}
    (hok : ∀ revision now after, w.Becomes w.engine ((change w.state).touch now) after →
      post (.ok revision) after)
    (herror : ∀ e after, regime.Disturbs → w.Stays after → w.FailsOnStore after →
      post (.error e) after)
    (hhalted : ∀ after, regime.hangs → w.Stays after → halted after) :
    Guarantees regime halted (update change).run w post := by
  rw [update, guarantees_attempt_bind]
  refine guarantees_load hquiet (fun read hread => ?_) herror hhalted
  simp only
  rw [guarantees_attempt_bind, guarantees_attempt_lift]
  -- The clock is no call on the store, so the revision is still the one that was read.
  refine guarantees_ask .clock ?_
  rintro reply after ⟨⟨now, rfl⟩, rfl⟩
  have hread' := hread.then_stays (after.becomes_note after.engine after.stored ⟨.clock, some now⟩)
  have hstate : after.stored.state = w.state := hread.state
  simp only [hstate]
  refine guarantees_commit (w := after.note ⟨.clock, some now⟩) hquiet rfl ?_ ?_ ?_
  · intro revision last hlast
    refine hok revision now last ?_
    have hengine : after.engine = w.engine := hread.engine
    have hcommitted := hread'.trans hlast
    rwa [World.note, hengine] at hcommitted
  · intro e last hdisturbs hlast hfailed
    exact herror e last hdisturbs (hread'.then_stays hlast) (hread'.failsOnStore hfailed)
  · intro last hhangs hlast
    exact hhalted last hhangs (hread'.then_stays hlast)

/-- A call on the store fails with an error of the store. -/
theorem guarantees_onStore_error {α : Type} (call : Run (Except StoreError α)) (w : World) :
    Guarantees regime (fun _ => True) (onStore call).run w fun result _ =>
      ∀ e, result = .error e → ∃ cause, e = .ofStore cause := by
  refine (guarantees_onStore _ _).2 (.of_forall fun result _ e he => ?_)
  cases result with
  | ok a => cases he
  | error cause =>
    cases he
    exact ⟨cause, rfl⟩

/-- An update fails with an error of the store. -/
theorem guarantees_update_error (change : PersistedState → PersistedState) (w : World) :
    Guarantees regime (fun _ => True) (update change).run w fun result _ =>
      ∀ e, result = .error e → ∃ cause, e = .ofStore cause := by
  rw [update, guarantees_attempt_bind]
  refine (guarantees_onStore_error _ w).imp fun loaded read hloaded => ?_
  cases loaded with
  | error e =>
    rintro _ ⟨⟩
    exact hloaded e rfl
  | ok current =>
    simp only
    rw [guarantees_attempt_bind, guarantees_attempt_lift]
    exact .of_forall fun _ after => guarantees_onStore_error _ after

/-- The same with the kind of the error told. -/
theorem guarantees_update_ofStore (hquiet : regime.Quiet)
    {change : PersistedState → PersistedState} {post : Except OverrideError UInt64 → World → Prop}
    (hok : ∀ revision now after, w.Becomes w.engine ((change w.state).touch now) after →
      post (.ok revision) after)
    (herror : ∀ e after, regime.Disturbs → w.Stays after → post (.error (.ofStore e)) after)
    (hhalted : ∀ after, regime.hangs → w.Stays after → halted after) :
    Guarantees regime halted (update change).run w post := by
  have hupdate : Guarantees regime halted (update change).run w fun result after =>
      (∀ e, result = .error e → ∃ cause, e = .ofStore cause) → post result after := by
    refine guarantees_update hquiet ?_ ?_ hhalted
    · intro revision now after hafter _
      exact hok revision now after hafter
    · intro e after hdisturbs hafter _ hkind
      obtain ⟨cause, rfl⟩ := hkind e rfl
      exact herror cause after hdisturbs hafter
  exact (hupdate.and (guarantees_update_error change w)).imp fun _ _ h => h.1 h.2

end Blocklist.Override
