import Mathlib

namespace ReadCommitted

-- What one row-level write does to the tables, which keys (rows and entries of unique indexes) it
-- locks until its transaction ends, and which constraint it violates in a given view of the tables.
class Store (D : Type) (W K E : outParam Type) where
  apply     : D → W → D
  keys      : W → List K
  violation : D → W → Option E

-- A program over a store, cut at its SQL statements. A statement determines the rows it writes from
-- the view it runs on, and continues with that view. It may also fail with a database error. The
-- commands `enter`, `leave` and `undo` are BEGIN/SAVEPOINT, COMMIT/RELEASE and ROLLBACK.
inductive Program (D W E α : Type) : Type
  | ret   (a : α)
  | raise (e : E)
  | stmt  (writes : D → List W) (next : D → Program D W E α) (failed : E → Program D W E α)
  | enter (next : Program D W E α)
  | leave (next : Program D W E α) (failed : E → Program D W E α)
  | undo  (next : Program D W E α)

namespace Program

variable {D W E α β γ : Type}

@[simp]
def bind : Program D W E α → (α → Program D W E β) → Program D W E β
  | ret a,        f => f a
  | raise e,      _ => raise e
  | stmt ws k h,  f => stmt ws (fun d => (k d).bind f) (fun e => (h e).bind f)
  | enter k,      f => enter (k.bind f)
  | leave k h,    f => leave (k.bind f) (fun e => (h e).bind f)
  | undo k,       f => undo (k.bind f)

-- `try: p except Exception as e: h e`.
@[simp]
def handle : Program D W E α → (E → Program D W E α) → Program D W E α
  | ret a,        _ => ret a
  | raise e,      f => f e
  | stmt ws k h,  f => stmt ws (fun d => (k d).handle f) (fun e => (h e).handle f)
  | enter k,      f => enter (k.handle f)
  | leave k h,    f => leave (k.handle f) (fun e => (h e).handle f)
  | undo k,       f => undo (k.handle f)

-- The body of a `with transaction.atomic()` block: a normal end commits, an exception rolls back
-- and continues to propagate.
@[simp]
def closed : Program D W E α → Program D W E α
  | ret a         => leave (ret a) raise
  | raise e       => undo (raise e)
  | stmt ws k h   => stmt ws (fun d => (k d).closed) (fun e => (h e).closed)
  | enter k       => enter k.closed
  | leave k h     => leave k.closed (fun e => (h e).closed)
  | undo k        => undo k.closed

theorem bind_assoc (p : Program D W E α) (f : α → Program D W E β) (g : β → Program D W E γ) :
    (p.bind f).bind g = p.bind (fun a => (f a).bind g) := by
  induction p <;> simp_all [bind]

theorem bind_ret (p : Program D W E α) : p.bind ret = p := by
  induction p <;> simp_all [bind]

-- `p.Nested n` means that `p`, started inside of `n` open blocks of its own, closes exactly these.
@[simp]
def Nested : Nat → Program D W E α → Prop
  | n,     ret _      => n = 0
  | n,     raise _    => n = 0
  | n,     stmt _ k h => (∀ d, (k d).Nested n) ∧ (∀ e, (h e).Nested n)
  | n,     enter k    => k.Nested (n + 1)
  | 0,     leave _ _  => False
  | n + 1, leave k h  => k.Nested n ∧ (∀ e, (h e).Nested n)
  | 0,     undo _     => False
  | n + 1, undo k     => k.Nested n

def ofExcept : Except E α → Program D W E α
  | .ok a    => ret a
  | .error e => raise e

theorem nested_ofExcept : (r : Except E α) → (ofExcept r : Program D W E α).Nested 0
  | .ok _ | .error _ => rfl

theorem Nested.bind {p : Program D W E α} {f : α → Program D W E β} {n : Nat} (hp : p.Nested n)
    (hf : ∀ a, (f a).Nested 0) : (p.bind f).Nested n := by
  induction p generalizing n <;> simp only [Program.bind, Nested] at hp ⊢
  case ret a           => exact hp ▸ hf a
  case raise           => exact hp
  case stmt ih₁ ih₂    => exact ⟨fun d => ih₁ d (hp.left d), fun e => ih₂ e (hp.right e)⟩
  case enter ih        => exact ih hp
  case leave ih₁ ih₂   =>
    cases n
    case zero => exact hp
    case succ => exact ⟨ih₁ hp.left, fun e => ih₂ e (hp.right e)⟩
  case undo ih         =>
    cases n
    case zero => exact hp
    case succ => exact ih hp

theorem Nested.handle {p : Program D W E α} {f : E → Program D W E α} {n : Nat} (hp : p.Nested n)
    (hf : ∀ e, (f e).Nested 0) : (p.handle f).Nested n := by
  induction p generalizing n <;> simp only [Program.handle, Nested] at hp ⊢
  case ret             => exact hp
  case raise e         => exact hp ▸ hf e
  case stmt ih₁ ih₂    => exact ⟨fun d => ih₁ d (hp.left d), fun e => ih₂ e (hp.right e)⟩
  case enter ih        => exact ih hp
  case leave ih₁ ih₂   =>
    cases n
    case zero => exact hp
    case succ => exact ⟨ih₁ hp.left, fun e => ih₂ e (hp.right e)⟩
  case undo ih         =>
    cases n
    case zero => exact hp
    case succ => exact ih hp

theorem Nested.closed {p : Program D W E α} {n : Nat} (hp : p.Nested n) :
    p.closed.Nested (n + 1) := by
  induction p generalizing n <;> simp only [Program.closed, Nested] at hp ⊢
  case ret             => exact ⟨hp, fun _ => hp⟩
  case raise           => exact hp
  case stmt ih₁ ih₂    => exact ⟨fun d => ih₁ d (hp.left d), fun e => ih₂ e (hp.right e)⟩
  case enter ih        => exact ih hp
  case leave ih₁ ih₂   =>
    cases n
    case zero => exact hp.elim
    case succ => exact ⟨ih₁ hp.left, fun e => ih₂ e (hp.right e)⟩
  case undo ih         =>
    cases n
    case zero => exact hp.elim
    case succ => exact ih hp

end Program

-- A program whose transaction blocks are properly nested. This is what Python code can express by
-- means of `transaction.atomic`, and the only kind of program that sessions are started with.
structure Service (D W E α : Type) where
  program : Program D W E α
  nested  : program.Nested 0

namespace Service

variable {D W E α β : Type}

def ret (a : α) : Service D W E α where
  program := .ret a
  nested  := rfl

def raise (e : E) : Service D W E α where
  program := .raise e
  nested  := rfl

-- A single SQL statement which ends with `q d` when run on the view `d`.
def stmt (writes : D → List W) (q : D → Except E α) : Service D W E α where
  program := .stmt writes (fun d => .ofExcept (q d)) .raise
  nested  := ⟨fun d => Program.nested_ofExcept (q d), fun _ => rfl⟩

def select (q : D → α) : Service D W E α where
  program := .stmt (fun _ => []) (fun d => .ret (q d)) .raise
  nested  := ⟨fun _ => rfl, fun _ => rfl⟩

def execute (writes : D → List W) : Service D W E Unit where
  program := .stmt writes (fun _ => .ret ()) .raise
  nested  := ⟨fun _ => rfl, fun _ => rfl⟩

def bind (s : Service D W E α) (f : α → Service D W E β) : Service D W E β where
  program := s.program.bind (fun a => (f a).program)
  nested  := s.nested.bind (fun a => (f a).nested)

instance : Monad (Service D W E) where
  pure := ret
  bind := bind

def handle (s : Service D W E α) (h : E → Service D W E α) : Service D W E α where
  program := s.program.handle (fun e => (h e).program)
  nested  := s.nested.handle (fun e => (h e).nested)

def atomic (s : Service D W E α) : Service D W E α where
  program := .enter s.program.closed
  nested  := s.nested.closed

theorem ext {s₁ s₂ : Service D W E α} (h : s₁.program = s₂.program) : s₁ = s₂ := by
  cases s₁; cases s₂; cases h; rfl

@[simp]
theorem pure_program (a : α) : (pure a : Service D W E α).program = .ret a :=
  rfl

@[simp]
theorem bind_program (s : Service D W E α) (f : α → Service D W E β) :
    (s >>= f).program = s.program.bind (fun a => (f a).program) :=
  rfl

instance : LawfulMonad (Service D W E) :=
  LawfulMonad.mk' _ (fun s => ext s.program.bind_ret) (fun _ _ => rfl)
    (fun s _ _ => ext <| s.program.bind_assoc _ _)

end Service
end ReadCommitted
