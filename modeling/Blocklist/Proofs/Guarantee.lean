import Blocklist.Proofs.Disturbance

set_option autoImplicit false

/-! # What programs guarantee

`Guarantees regime halted p w post` says that, whatever answers the program `p` gets from the world
`w` on under the regime, it either ends with a result and in a world of which `post` holds, or hangs
in a world of which `halted` holds. The rules below take a program apart along its structure; what
it guarantees holds of every run of it in an environment (`Guarantees.run`). -/

namespace Blocklist.Override

variable {α β : Type} {regime : Regime} {halted : World → Prop}

/-- What a program makes sure of under a regime, whatever the answers to its calls. -/
def Guarantees (regime : Regime) (halted : World → Prop) :
    Run α → World → (α → World → Prop) → Prop
  | .done a, w, post => post a w
  | .stuck, w, _ => halted w
  | .call c next, w, post => ∀ reply after, Answers regime w c reply after →
      Guarantees regime halted (next reply) (after.note ⟨c, reply⟩) post

/-! ## Rules for programs -/

theorem guarantees_bind (p : Run α) (f : α → Run β) (w : World) (post : β → World → Prop) :
    Guarantees regime halted (p >>= f) w post
      ↔ Guarantees regime halted p w fun a after => Guarantees regime halted (f a) after post := by
  show Guarantees regime halted (p.bind f) w post ↔ _
  induction p generalizing w with
  | done a => exact Iff.rfl
  | stuck => exact Iff.rfl
  | call c next ih =>
    simp only [Program.bind, Guarantees]
    exact forall_congr' fun reply => forall_congr' fun after => imp_congr_right fun _ => ih reply _

theorem Guarantees.mono {p : Run α} {w : World} {halted' : World → Prop}
    {post post' : α → World → Prop} (h : Guarantees regime halted p w post)
    (hpost : ∀ a after, post a after → post' a after)
    (hhalted : ∀ after, halted after → halted' after) :
    Guarantees regime halted' p w post' := by
  induction p generalizing w with
  | done a => exact hpost a w h
  | stuck => exact hhalted w h
  | call c next ih => exact fun reply after hanswer => ih reply (h reply after hanswer)

theorem Guarantees.imp {p : Run α} {w : World} {post post' : α → World → Prop}
    (h : Guarantees regime halted p w post) (hpost : ∀ a after, post a after → post' a after) :
    Guarantees regime halted p w post' :=
  h.mono hpost fun _ h => h

/-- Two guarantees together; where the program hangs, the first one tells. -/
theorem Guarantees.and {p : Run α} {w : World} {halted' : World → Prop}
    {post post' : α → World → Prop} (h : Guarantees regime halted p w post)
    (h' : Guarantees regime halted' p w post') :
    Guarantees regime halted p w fun a after => post a after ∧ post' a after := by
  induction p generalizing w with
  | done a => exact ⟨h, h'⟩
  | stuck => exact h
  | call c next ih =>
    exact fun reply after hanswer => ih reply (h reply after hanswer) (h' reply after hanswer)

/-- What holds of everything holds at the end of a program. -/
theorem Guarantees.of_forall {p : Run α} {w : World}
    {post : α → World → Prop} (h : ∀ a after, post a after) :
    Guarantees regime (fun _ => True) p w post := by
  induction p generalizing w with
  | done a => exact h a w
  | stuck => trivial
  | call c next ih => exact fun reply after _ => ih reply

/-- A program whose wait is bounded ends where it would hang. -/
theorem guarantees_bounded (p : Run α) (w : World) (post : Option α → World → Prop) :
    Guarantees regime halted p.bounded w post
      ↔ Guarantees regime (post none) p w fun a => post (some a) := by
  induction p generalizing w with
  | done a => exact Iff.rfl
  | stuck => exact Iff.rfl
  | call c next ih =>
    simp only [Program.bounded, Guarantees]
    exact forall_congr' fun reply => forall_congr' fun after => imp_congr_right fun _ => ih reply _

/-- A loop guarantees what each of its passes keeps; `inv` is told which passes are left. -/
theorem guarantees_foldlM {γ : Type} {f : β → γ → Run β} (inv : List γ → β → World → Prop)
    (hstep : ∀ a rest b w, inv (a :: rest) b w → Guarantees regime halted (f b a) w (inv rest))
    (items : List γ) (b : β) (w : World) (hstart : inv items b w) :
    Guarantees regime halted (items.foldlM f b) w (inv []) := by
  induction items generalizing b w with
  | nil => exact hstart
  | cons a rest ih =>
    rw [List.foldlM_cons, guarantees_bind]
    exact (hstep a rest b w hstart).imp fun b' after h => ih b' after h

/-! ## Rules for attempts -/

theorem guarantees_attempt_bind (a : Attempt α) (f : α → Attempt β) (w : World)
    (post : Except OverrideError β → World → Prop) :
    Guarantees regime halted (a >>= f).run w post
      ↔ Guarantees regime halted a.run w fun result after =>
          match result with
          | .ok x => Guarantees regime halted (f x).run after post
          | .error e => post (.error e) after := by
  rw [ExceptT.run_bind, guarantees_bind]
  refine iff_of_eq (congrArg (Guarantees regime halted a.run w) ?_)
  funext result after
  cases result with
  | ok x => rfl
  | error e => rfl

@[simp]
theorem guarantees_attempt_pure (a : α) (w : World)
    (post : Except OverrideError α → World → Prop) :
    Guarantees regime halted (pure a : Attempt α).run w post ↔ post (.ok a) w := Iff.rfl

/-- A program inside an attempt does not end it. -/
theorem guarantees_attempt_lift (p : Run α) (w : World)
    (post : Except OverrideError α → World → Prop) :
    Guarantees regime halted (liftM p : Attempt α).run w post
      ↔ Guarantees regime halted p w fun a => post (.ok a) := by
  show Guarantees regime halted (p >>= fun a => pure (.ok a)) w post ↔ _
  rw [guarantees_bind]
  exact Iff.rfl

/-- An attempt whose outcome is looked at does not end the whole. -/
theorem guarantees_outcome (a : Attempt α) (w : World)
    (post : Except OverrideError (Except OverrideError α) → World → Prop) :
    Guarantees regime halted (outcome a).run w post
      ↔ Guarantees regime halted a.run w fun result => post (.ok result) :=
  guarantees_attempt_lift a.run w post

/-- Work that calls on nobody. -/
@[simp]
theorem guarantees_attempt_mk (result : Except OverrideError α) (w : World)
    (post : Except OverrideError α → World → Prop) :
    Guarantees regime halted (ExceptT.mk (pure result) : Attempt α).run w post
      ↔ post result w := Iff.rfl

/-- A loop that keeps to something and is never left early ends with it. -/
theorem guarantees_attempt_forIn {γ : Type} {f : γ → PUnit → Attempt (ForInStep PUnit)}
    (inv : World → Prop)
    (hstep : ∀ a w, inv w → Guarantees regime halted (f a ⟨⟩).run w fun result after =>
      result = .ok (.yield ⟨⟩) ∧ inv after)
    (items : List γ) (w : World) (hstart : inv w) :
    Guarantees regime halted (forIn items ⟨⟩ f).run w fun result after =>
      result = .ok ⟨⟩ ∧ inv after := by
  induction items generalizing w with
  | nil => exact ⟨rfl, hstart⟩
  | cons a rest ih =>
    rw [List.forIn_cons, guarantees_attempt_bind]
    refine (hstep a w hstart).imp ?_
    rintro _ after ⟨rfl, hafter⟩
    exact ih after hafter

/-! ## Runs -/

namespace Environment

/-- A run of one program after another goes on where the first one ends. -/
theorem run_bind (p : Run α) (f : α → Run β) (env : Environment) :
    env.run (p >>= f) = match env.run p with
      | (some a, after) => after.run (f a)
      | (none, after) => (none, after) := by
  show env.run (p.bind f) = _
  induction p generalizing env with
  | done a => rfl
  | stuck => rfl
  | call c next ih => exact ih _ _

theorem run_bind_of_eq {p : Run α} {env after : Environment} {a : α}
    (h : env.run p = (some a, after)) (f : α → Run β) : env.run (p >>= f) = after.run (f a) := by
  rw [run_bind, h]

/-- A program that ends after another one has ended goes on where that one did. -/
theorem exists_of_run_bind {p : Run α} {f : α → Run β} {b : β} {env after : Environment}
    (h : env.run (p >>= f) = (some b, after)) :
    ∃ a between, env.run p = (some a, between) ∧ between.run (f a) = (some b, after) := by
  rw [run_bind] at h
  generalize env.run p = first at h ⊢
  obtain ⟨reply, between⟩ := first
  cases reply with
  | none => cases h
  | some a => exact ⟨a, between, rfl, h⟩

theorem exists_of_run_attempt_bind {a : Attempt α} {f : α → Attempt β} {y : β}
    {env after : Environment} (h : env.run (a >>= f).run = (some (.ok y), after)) :
    ∃ x between, env.run a.run = (some (.ok x), between)
      ∧ between.run (f x).run = (some (.ok y), after) := by
  rw [ExceptT.run_bind] at h
  obtain ⟨result, between, hfirst, hrest⟩ := exists_of_run_bind h
  cases result with
  | ok x => exact ⟨x, between, hfirst, hrest⟩
  | error e => cases hrest

/-- The calls that a run makes and their answers, last first and on top of `log`. -/
def exchanges : Run α → Environment → List Exchange → List Exchange
  | .done _, _, log => log
  | .stuck, _, log => log
  | .call c next, env, log =>
    exchanges (next (answer c env).1) (answer c env).2 (⟨c, (answer c env).1⟩ :: log)

end Environment

/-- What a program guarantees in a world holds of its run in every environment that shows it. -/
theorem Guarantees.run {p : Run α} {w : World} {post : α → World → Prop} {view : Store.View}
    {env : Environment} (h : Guarantees regime halted p w post) (hshows : Shows view regime env w) :
    ∃ after, Shows view regime (env.run p).2 after ∧ after.log = env.exchanges p w.log
      ∧ match (env.run p).1 with
        | some a => post a after
        | none => halted after := by
  induction p generalizing w env with
  | done a => exact ⟨w, hshows, rfl, h⟩
  | stuck => exact ⟨w, hshows, rfl, h⟩
  | call c next ih =>
    obtain ⟨after, hanswer, hafter, hlog⟩ := hshows.exists_answer c
    obtain ⟨last, hlast, hlastLog, hend⟩ := ih _ (h _ _ hanswer) hafter
    refine ⟨last, hlast, ?_, hend⟩
    rw [hlastLog, World.note, hlog]
    rfl

/-- A program that cannot hang ends, in a world of which it guarantees something. -/
theorem Guarantees.exists_run {p : Run α} {post : α → World → Prop} {view : Store.View}
    (env : Environment) {v : Versioned}
    (h : Guarantees regime (fun _ => False) p ⟨env.engine, v, []⟩ post)
    (hholds : view.Holds env.store v) (hadmits : regime.Admits env.schedule) :
    ∃ a after v', env.run p = (some a, after) ∧ view.Holds after.store v'
      ∧ post a ⟨after.engine, v', env.exchanges p []⟩ := by
  obtain ⟨⟨engine, v', log⟩, hafter, hlog, hend⟩ := h.run ⟨rfl, hholds, hadmits⟩
  have hengine : (env.run p).2.engine = engine := hafter.engine
  cases hresult : (env.run p).1 with
  | none =>
    rw [hresult] at hend
    exact hend.elim
  | some a =>
    rw [hresult] at hend
    refine ⟨a, (env.run p).2, v', by rw [← hresult], hafter.held, ?_⟩
    rw [hengine, ← hlog]
    exact hend

end Blocklist.Override
