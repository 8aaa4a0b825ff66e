set_option autoImplicit false

/-! # Programs that call out

A program makes calls, one after another, and goes on with the answers. What answers them is not
part of it: the same program runs against a value that stands for the surroundings and against the
real ones. A call may also stay without an answer; a program that waits for one is stuck there for
good, unless somebody bounds the wait. -/

namespace Blocklist

/-- What can be called, and what answers a call. -/
structure Interface where
  Call : Type
  Answer : Call → Type

/-- A program over an interface. -/
inductive Program (I : Interface) (α : Type) : Type where
  | done (a : α)
  /-- Waits for an answer that does not come. -/
  | stuck
  /-- Makes a call and goes on with its answer, or without one. -/
  | call (c : I.Call) (next : Option (I.Answer c) → Program I α)

namespace Program

variable {I : Interface} {α β : Type}

/-- One program after another. -/
def bind (p : Program I α) (f : α → Program I β) : Program I β :=
  match p with
  | done a => f a
  | stuck => stuck
  | call c next => call c fun answer => (next answer).bind f

instance : Monad (Program I) where
  pure := done
  bind := bind

/-- Makes a call and waits for its answer. -/
def ask (c : I.Call) : Program I (I.Answer c) :=
  call c fun
    | some answer => done answer
    | none => stuck

/-- The program with its wait bounded: where it would be stuck, it ends without a result. -/
def bounded : Program I α → Program I (Option α)
  | done a => done (some a)
  | stuck => done none
  | call c next => call c fun answer => (next answer).bounded

/-- Runs a program against whatever answers its calls. There is no result if it gets stuck. -/
def interpret {m : Type → Type} [Monad m] (answer : (c : I.Call) → m (Option (I.Answer c))) :
    Program I α → m (Option α)
  | done a => pure (some a)
  | stuck => pure none
  | call c next => do
    let reply ← answer c
    interpret answer (next reply)

@[simp] theorem done_bind (a : α) (f : α → Program I β) : (done a).bind f = f a := rfl

@[simp] theorem stuck_bind (f : α → Program I β) : (stuck : Program I α).bind f = stuck := rfl

theorem bind_done (p : Program I α) : p.bind done = p := by
  induction p with
  | done a => rfl
  | stuck => rfl
  | call c next ih => simp [bind, ih]

theorem bind_assoc {γ : Type} (p : Program I α) (f : α → Program I β) (g : β → Program I γ) :
    (p.bind f).bind g = p.bind fun a => (f a).bind g := by
  induction p with
  | done a => rfl
  | stuck => rfl
  | call c next ih => simp [bind, ih]

instance : LawfulMonad (Program I) :=
  LawfulMonad.mk' (Program I) (fun p => bind_done p) (fun _ _ => rfl) bind_assoc

end Program

end Blocklist
