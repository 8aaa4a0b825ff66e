import Blocklist.Proofs.Calls

set_option autoImplicit false

/-! # Which calls a program makes

`Obeys regime allowed p w` says that the program `p`, from the world `w` on, makes no call but those
that are allowed in the world in which it makes them, whatever it is answered. What `Guarantees`
says about the ends of a program is so said about all moments between two calls: what every allowed
call keeps holds at each of them (`Obeys.forall_moments`), also where a run gets stuck. -/

namespace Blocklist.Override

variable {α β : Type} {regime : Regime} {allowed : World → Call → Prop} {w : World}

/-- Whatever the answers, a program makes allowed calls only. -/
def Obeys (regime : Regime) (allowed : World → Call → Prop) : Run α → World → Prop
  | .done _, _ => True
  | .stuck, _ => True
  | .call c next, w => allowed w c ∧ ∀ reply after, Answers regime w c reply after →
      Obeys regime allowed (next reply) (after.note ⟨c, reply⟩)

/-! ## Rules for programs -/

theorem obeys_bind {p : Run α} {f : α → Run β} (h : Obeys regime allowed p w)
    (hnext : Guarantees regime (fun _ => True) p w fun a after =>
      Obeys regime allowed (f a) after) :
    Obeys regime allowed (p >>= f) w := by
  show Obeys regime allowed (p.bind f) w
  induction p generalizing w with
  | done a => exact hnext
  | stuck => trivial
  | call c next ih =>
    exact ⟨h.1, fun reply after hanswer =>
      ih reply (h.2 reply after hanswer) (hnext reply after hanswer)⟩

/-- The next program obeys wherever it starts. -/
theorem obeys_bind_of_forall {p : Run α} {f : α → Run β} (h : Obeys regime allowed p w)
    (hnext : ∀ a after, Obeys regime allowed (f a) after) : Obeys regime allowed (p >>= f) w :=
  obeys_bind h (.of_forall hnext)

theorem obeys_ask {c : Call} (h : allowed w c) :
    Obeys regime allowed (Program.ask (I := interface) c) w := by
  refine ⟨h, fun reply after _ => ?_⟩
  cases reply with
  | some a => trivial
  | none => trivial

theorem Obeys.bounded {p : Run α} (h : Obeys regime allowed p w) :
    Obeys regime allowed p.bounded w := by
  induction p generalizing w with
  | done a => trivial
  | stuck => trivial
  | call c next ih => exact ⟨h.1, fun reply after hanswer => ih reply (h.2 reply after hanswer)⟩

theorem obeys_foldlM {γ : Type} {f : β → γ → Run β}
    (h : ∀ b a w, Obeys regime allowed (f b a) w) (items : List γ) (b : β) (w : World) :
    Obeys regime allowed (items.foldlM f b) w := by
  induction items generalizing b w with
  | nil => trivial
  | cons a rest ih =>
    rw [List.foldlM_cons]
    exact obeys_bind_of_forall (h b a w) ih

/-! ## Rules for attempts -/

theorem obeys_attempt_bind {a : Attempt α} {f : α → Attempt β} (h : Obeys regime allowed a.run w)
    (hnext : Guarantees regime (fun _ => True) a.run w fun result after =>
      ∀ x, result = .ok x → Obeys regime allowed (f x).run after) :
    Obeys regime allowed (a >>= f).run w := by
  rw [ExceptT.run_bind]
  refine obeys_bind h (hnext.imp fun result after hafter => ?_)
  cases result with
  | ok x => exact hafter x rfl
  | error e => trivial

theorem obeys_attempt_bind_of_forall {a : Attempt α} {f : α → Attempt β}
    (h : Obeys regime allowed a.run w) (hnext : ∀ x after, Obeys regime allowed (f x).run after) :
    Obeys regime allowed (a >>= f).run w :=
  obeys_attempt_bind h (.of_forall fun _ after x _ => hnext x after)

theorem obeys_attempt_lift {p : Run α} (h : Obeys regime allowed p w) :
    Obeys regime allowed (liftM p : Attempt α).run w :=
  obeys_bind_of_forall h fun _ _ => trivial

theorem obeys_outcome {a : Attempt α} (h : Obeys regime allowed a.run w) :
    Obeys regime allowed (outcome a).run w :=
  obeys_attempt_lift h

theorem obeys_onEngine {call : Run (Except EngineError α)} (h : Obeys regime allowed call w) :
    Obeys regime allowed (onEngine call).run w :=
  obeys_bind_of_forall h fun _ _ => trivial

theorem obeys_onStore {call : Run (Except StoreError α)} (h : Obeys regime allowed call w) :
    Obeys regime allowed (onStore call).run w :=
  obeys_bind_of_forall h fun _ _ => trivial

theorem obeys_attempt_forIn {γ : Type} {f : γ → PUnit → Attempt (ForInStep PUnit)}
    (h : ∀ a w, Obeys regime allowed (f a ⟨⟩).run w) (items : List γ) (w : World) :
    Obeys regime allowed (forIn items ⟨⟩ f : Attempt PUnit).run w := by
  induction items generalizing w with
  | nil => trivial
  | cons a rest ih =>
    rw [List.forIn_cons]
    refine obeys_attempt_bind_of_forall (h a w) fun step after => ?_
    cases step with
    | done _ => trivial
    | yield _ => exact ih after

/-! ## Moments of a run -/

namespace Environment

/-- The environment before each call of a run and at its end. -/
def moments : Run α → Environment → List Environment
  | .done _, env => [env]
  | .stuck, env => [env]
  | .call c next, env => env :: moments (next (answer c env).1) (answer c env).2

/-- The calls of a run, each with the environment in which it is made. -/
def calls : Run α → Environment → List (Environment × Call)
  | .done _, _ => []
  | .stuck, _ => []
  | .call c next, env => (env, c) :: calls (next (answer c env).1) (answer c env).2

theorem moments_eq (p : Run α) (env : Environment) :
    env.moments p = (env.calls p).map Prod.fst ++ [(env.run p).2] := by
  induction p generalizing env with
  | done a => rfl
  | stuck => rfl
  | call c next ih => exact congrArg (env :: ·) (ih _ _)

theorem run_mem_moments (p : Run α) (env : Environment) : (env.run p).2 ∈ env.moments p := by
  rw [moments_eq]
  exact List.mem_append_right _ (List.mem_singleton_self _)

/-- An environment holds a state of which, together with its engine, `inv` holds. -/
def Keeps (view : Store.View) (inv : Engine → PersistedState → Prop) (env : Environment) : Prop :=
  ∃ v, view.Holds env.store v ∧ inv env.engine v.state

/-- The state that one environment holds leads to the state that another one holds. -/
def Leads (view : Store.View) (rel : PersistedState → PersistedState → Prop)
    (env env' : Environment) : Prop :=
  ∀ v, view.Holds env.store v → ∃ v', view.Holds env'.store v' ∧ rel v.state v'.state

end Environment

/-- What holds at every moment of two programs holds at every moment of one after the other. -/
theorem forall_moments_bind {Q : Environment → Prop} {env : Environment} {p : Run α}
    {f : α → Run β} (h : ∀ m ∈ env.moments p, Q m)
    (hnext : ∀ a after, env.run p = (some a, after) → ∀ m ∈ after.moments (f a), Q m) :
    ∀ m ∈ env.moments (p >>= f), Q m := by
  show ∀ m ∈ env.moments (p.bind f), Q m
  induction p generalizing env with
  | done a => exact hnext a env rfl
  | stuck => exact h
  | call c next ih =>
    obtain ⟨hfirst, hrest⟩ := List.forall_mem_cons.1 h
    exact List.forall_mem_cons.2 ⟨hfirst, ih _ hrest hnext⟩

theorem forall_moments_attempt_bind {Q : Environment → Prop} {env : Environment} {a : Attempt α}
    {f : α → Attempt β} (h : ∀ m ∈ env.moments a.run, Q m)
    (hnext : ∀ x after, env.run a.run = (some (.ok x), after) →
      ∀ m ∈ after.moments (f x).run, Q m) :
    ∀ m ∈ env.moments (a >>= f).run, Q m := by
  rw [ExceptT.run_bind]
  refine forall_moments_bind h fun result after hrun => ?_
  cases result with
  | ok x => exact hnext x after hrun
  | error e =>
    have hlast := h _ (Environment.run_mem_moments a.run env)
    rw [hrun] at hlast
    exact List.forall_mem_singleton.2 hlast

/-- From `first` by way of a list to `last`, whatever comes earlier is related to what comes
later. -/
structure Ascends {γ : Type} (rel : γ → γ → Prop) (first : γ) (items : List γ) (last : γ) :
    Prop where
  ends : rel first last
  first : ∀ a ∈ items, rel first a
  last : ∀ a ∈ items, rel a last
  pairwise : items.Pairwise rel

theorem ascends_singleton {γ : Type} {rel : γ → γ → Prop} {a b : γ} (hrefl : rel a a)
    (hab : rel a b) : Ascends rel a [a] b :=
  ⟨hab, List.forall_mem_singleton.2 hrefl, List.forall_mem_singleton.2 hab,
    List.pairwise_singleton ..⟩

theorem Ascends.append {γ : Type} {rel : γ → γ → Prop}
    (htrans : ∀ {a b c}, rel a b → rel b c → rel a c) {a b c : γ} {items items' : List γ}
    (h : Ascends rel a items b) (h' : Ascends rel b items' c) :
    Ascends rel a (items ++ items') c where
  ends := htrans h.ends h'.ends
  first := List.forall_mem_append.2 ⟨h.first, fun x hx => htrans h.ends (h'.first x hx)⟩
  last := List.forall_mem_append.2 ⟨fun x hx => htrans (h.last x hx) h'.ends, h'.last⟩
  pairwise := List.pairwise_append.2
    ⟨h.pairwise, h'.pairwise, fun x hx y hy => htrans (h.last x hx) (h'.first y hy)⟩

section

variable {view : Store.View} {rel : PersistedState → PersistedState → Prop}
  {inv : Engine → PersistedState → Prop} {env : Environment}

theorem Environment.Leads.refl (hrefl : ∀ s, rel s s) (env : Environment) :
    env.Leads view rel env :=
  fun v hv => ⟨v, hv, hrefl v.state⟩

theorem Environment.Leads.trans (htrans : ∀ s₁ s₂ s₃, rel s₁ s₂ → rel s₂ s₃ → rel s₁ s₃)
    {env' env'' : Environment} (h : env.Leads view rel env') (h' : env'.Leads view rel env'') :
    env.Leads view rel env'' := by
  intro v hv
  obtain ⟨v', hv', hrel⟩ := h v hv
  obtain ⟨v'', hv'', hrel'⟩ := h' v' hv'
  exact ⟨v'', hv'', htrans _ _ _ hrel hrel'⟩

theorem Shows.keeps (h : Shows view regime env w) (hinv : inv w.engine w.state) :
    env.Keeps view inv :=
  ⟨w.stored, h.held, h.engine ▸ hinv⟩

theorem Shows.leads {env' : Environment} {after : World} (h : Shows view regime env w)
    (h' : Shows view regime env' after) (hrel : rel w.state after.state) :
    env.Leads view rel env' := by
  intro v hv
  obtain rfl := view.holds_unique hv h.held
  exact ⟨after.stored, h'.held, hrel⟩

/-- What the answer to every allowed call keeps holds at every moment of a run. -/
theorem Obeys.forall_moments_of_answer {Q : Environment → Prop} {p : Run α}
    (h : Obeys regime allowed p w)
    (hkeep : ∀ env w c, allowed w c → Q env → Q (Environment.answer c env).2)
    (hshows : Shows view regime env w) (hQ : Q env) : ∀ m ∈ env.moments p, Q m := by
  induction p generalizing w env with
  | done a => exact List.forall_mem_singleton.2 hQ
  | stuck => exact List.forall_mem_singleton.2 hQ
  | call c next ih =>
    obtain ⟨after, hanswer, hafter, -⟩ := hshows.exists_answer c
    exact List.forall_mem_cons.2 ⟨hQ, ih _ (h.2 _ _ hanswer) hafter (hkeep env w c h.1 hQ)⟩

/-- What allowed calls keep holds at every moment of a run. -/
theorem Obeys.forall_moments {p : Run α} (h : Obeys regime allowed p w)
    (hkeep : ∀ w c reply after, inv w.engine w.state → allowed w c →
      Answers regime w c reply after →
      inv after.engine after.state)
    (hshows : Shows view regime env w) (hinv : inv w.engine w.state) :
    ∀ e ∈ env.moments p, e.Keeps view inv := by
  induction p generalizing w env with
  | done a => exact List.forall_mem_singleton.2 (hshows.keeps hinv)
  | stuck => exact List.forall_mem_singleton.2 (hshows.keeps hinv)
  | call c next ih =>
    obtain ⟨after, hanswer, hafter, -⟩ := hshows.exists_answer c
    exact List.forall_mem_cons.2 ⟨hshows.keeps hinv,
      ih _ (h.2 _ _ hanswer) hafter (hkeep w c _ after hinv h.1 hanswer)⟩

/-- What relates the states before and after every allowed call relates the states at any two
moments of a run, if it can be chained. -/
theorem Obeys.ascends {p : Run α} (h : Obeys regime allowed p w) (hrefl : ∀ s, rel s s)
    (htrans : ∀ s₁ s₂ s₃, rel s₁ s₂ → rel s₂ s₃ → rel s₁ s₃)
    (hkeep : ∀ w c reply after, inv w.engine w.state → allowed w c →
      Answers regime w c reply after →
      inv after.engine after.state ∧ rel w.state after.state)
    (hshows : Shows view regime env w) (hinv : inv w.engine w.state) :
    Ascends (Environment.Leads view rel) env (env.moments p) (env.run p).2 := by
  induction p generalizing w env with
  | done a => exact ascends_singleton (.refl hrefl env) (.refl hrefl env)
  | stuck => exact ascends_singleton (.refl hrefl env) (.refl hrefl env)
  | call c next ih =>
    obtain ⟨after, hanswer, hafter, -⟩ := hshows.exists_answer c
    obtain ⟨hinv', hrel⟩ := hkeep w c _ after hinv h.1 hanswer
    exact (ascends_singleton (.refl hrefl env) (hshows.leads hafter hrel)).append
      (fun h => h.trans htrans) (ih _ (h.2 _ _ hanswer) hafter hinv')

/-- Every call of a run is allowed where it is made, and `inv` holds there. -/
theorem Obeys.forall_calls {p : Run α} (h : Obeys regime allowed p w)
    (inv : Engine → PersistedState → Prop)
    (hkeep : ∀ w c reply after, inv w.engine w.state → allowed w c →
      Answers regime w c reply after →
      inv after.engine after.state)
    (hshows : Shows view regime env w) (hinv : inv w.engine w.state) :
    ∀ x ∈ env.calls p, ∃ u, Shows view regime x.1 u ∧ inv u.engine u.state ∧ allowed u x.2 := by
  induction p generalizing w env with
  | done a => exact List.forall_mem_nil _
  | stuck => exact List.forall_mem_nil _
  | call c next ih =>
    obtain ⟨after, hanswer, hafter, -⟩ := hshows.exists_answer c
    exact List.forall_mem_cons.2 ⟨⟨w, hshows, hinv, h.1⟩,
      ih _ (h.2 _ _ hanswer) hafter (hkeep w c _ after hinv h.1 hanswer)⟩

end

end Blocklist.Override
