/-!
# Asynchronous functions

A function runs without interruption from one await to the next; while it waits, anything that the environment may do
happens to the shared state. A reply is a value or an error.

- `Prog`, a monad with exceptions, and `Prog.segment`: what it does up to the next await;
- `Prog.Runs`: the runs of one function among others;
- `Prog.wp`: what must hold for every run to end well, by the rules `wp_bind`, `wp_mono`;
- `Prog.Runs.sound`, `Prog.wp_segment`: what it says of runs, and of one segment;
- `Prog.Yields`, `Prog.Keeps`: a property that a function keeps, by one rule for each way to build it;
- `Prog.alone`: the run of a function by itself.
-/

namespace Async

/-- A function on a shared state `σ` that awaits `c : C` and gets a reply of type `R c`. -/
inductive Prog (σ ε C : Type) (R : C → Type) (α : Type)
  | ret (a : α)
  | throw (e : ε)
  | read (k : σ → Prog σ ε C R α)
  | write (s : σ) (next : Prog σ ε C R α)
  | await (c : C) (k : Except ε (R c) → Prog σ ε C R α)

namespace Prog

variable {σ ε C : Type} {R : C → Type} {α β : Type}

/-- What follows a function, given how it ended. -/
def andThen : Prog σ ε C R α → (Except ε α → Prog σ ε C R β) → Prog σ ε C R β
  | .ret a, f => f (.ok a)
  | .throw e, f => f (.error e)
  | .read k, f => .read fun s => andThen (k s) f
  | .write s next, f => .write s (andThen next f)
  | .await c k, f => .await c fun r => andThen (k r) f

/-- How a function ends that has the outcome already. -/
def ofOutcome : Except ε α → Prog σ ε C R α
  | .ok a => .ret a
  | .error e => .throw e

def bind (p : Prog σ ε C R α) (f : α → Prog σ ε C R β) : Prog σ ε C R β :=
  p.andThen fun
    | .ok a => f a
    | .error e => .throw e

instance : Monad (Prog σ ε C R) where
  pure := .ret
  bind := bind

/-- `try { p } catch (e) { f(e) }`. -/
def tryCatch (p : Prog σ ε C R α) (f : ε → Prog σ ε C R α) : Prog σ ε C R α :=
  p.andThen fun
    | .ok a => .ret a
    | .error e => f e

/-- `try { p } finally { f }`. -/
def finallyDo (p : Prog σ ε C R α) (f : Prog σ ε C R Unit) : Prog σ ε C R α :=
  p.andThen fun out => f.andThen fun
    | .ok _ => ofOutcome out
    | .error e => .throw e

/-- A promise that was caught: its outcome as a value. -/
def attempt (p : Prog σ ε C R α) : Prog σ ε C R (Except ε α) := p.andThen .ret

def getState : Prog σ ε C R σ := .read .ret
def modify (f : σ → σ) : Prog σ ε C R Unit := .read fun s => .write (f s) (.ret ())

/-- A call without an await: it reads and writes the state, and may throw. -/
def call (f : σ → Except ε α × σ) : Prog σ ε C R α := .read fun s => .write (f s).2 (ofOutcome (f s).1)

/-- `await c`, where a rejection is thrown. -/
def awaitOk (c : C) : Prog σ ε C R (R c) := .await c ofOutcome

/-! ## Segments -/

/-- A function that waits. -/
structure Waiting (σ ε C : Type) (R : C → Type) (α : Type) where
  site : C
  resume : Except ε (R site) → Prog σ ε C R α

/-- What runs without interruption: the state after it, and the await or the end it has come to. -/
def segment : Prog σ ε C R α → σ → (Waiting σ ε C R α ⊕ Except ε α) × σ
  | .ret a, s => (.inr (.ok a), s)
  | .throw e, s => (.inr (.error e), s)
  | .read k, s => (k s).segment s
  | .write s next, _ => next.segment s
  | .await c k, s => (.inl ⟨c, k⟩, s)

/-! ## Runs among others -/

/-- What may happen between an await and its reply. -/
abbrev Env (σ ε C : Type) (R : C → Type) := ∀ c : C, Except ε (R c) → σ → σ → Prop

/-- The runs of a function, with its outcome and the last state. -/
inductive Runs (env : Env σ ε C R) : Prog σ ε C R α → σ → Except ε α → σ → Prop
  | ret {a : α} {s : σ} : Runs env (.ret a) s (.ok a) s
  | throw {e : ε} {s : σ} : Runs env (.throw e) s (.error e) s
  | read {k : σ → Prog σ ε C R α} {s s' : σ} {out : Except ε α} (h : Runs env (k s) s out s') : Runs env (.read k) s out s'
  | write {s t s' : σ} {next : Prog σ ε C R α} {out : Except ε α} (h : Runs env next t out s') :
      Runs env (.write t next) s out s'
  | await {c : C} {k : Except ε (R c) → Prog σ ε C R α} {s t s' : σ} {out : Except ε α} (r : Except ε (R c))
      (hrely : env c r s t) (h : Runs env (k r) t out s') : Runs env (.await c k) s out s'

variable {env : Env σ ε C R} {I : C → σ → Prop}

/-- Every run from here is at `I` where it waits and ends in `Q`. -/
def wp (env : Env σ ε C R) (I : C → σ → Prop) (Q : Except ε α → σ → Prop) : Prog σ ε C R α → σ → Prop
  | .ret a, s => Q (.ok a) s
  | .throw e, s => Q (.error e) s
  | .read k, s => (k s).wp env I Q s
  | .write t next, _ => next.wp env I Q t
  | .await c k, s => I c s ∧ ∀ r t, env c r s t → (k r).wp env I Q t

theorem Runs.sound {p : Prog σ ε C R α} {s s' : σ} {out : Except ε α} {Q : Except ε α → σ → Prop}
    (h : Runs env p s out s') (hp : p.wp env I Q s) : Q out s' := by
  induction h with
  | ret => exact hp
  | throw => exact hp
  | read _ ih => exact ih hp
  | write _ ih => exact ih hp
  | await r hrely _ ih => exact ih (hp.2 r _ hrely)

theorem wp_mono {Q Q' : Except ε α → σ → Prop} (h : ∀ out s, Q out s → Q' out s) :
    ∀ {p : Prog σ ε C R α} {s : σ}, p.wp env I Q s → p.wp env I Q' s
  | .ret _, _, hp => h _ _ hp
  | .throw _, _, hp => h _ _ hp
  | .read k, s, hp => wp_mono h (p := k s) hp
  | .write _ next, _, hp => wp_mono h (p := next) hp
  | .await _ k, _, hp => ⟨hp.1, fun r t ht => wp_mono h (p := k r) (hp.2 r t ht)⟩

theorem wp_weaken {I' : C → σ → Prop} {Q : Except ε α → σ → Prop} (h : ∀ c s, I c s → I' c s) :
    ∀ {p : Prog σ ε C R α} {s : σ}, p.wp env I Q s → p.wp env I' Q s
  | .ret _, _, hp => hp
  | .throw _, _, hp => hp
  | .read k, s, hp => wp_weaken h (p := k s) hp
  | .write _ next, _, hp => wp_weaken h (p := next) hp
  | .await _ k, _, hp => ⟨h _ _ hp.1, fun r t ht => wp_weaken h (p := k r) (hp.2 r t ht)⟩

theorem wp_andThen {Q : Except ε β → σ → Prop} {f : Except ε α → Prog σ ε C R β} :
    ∀ {p : Prog σ ε C R α} {s : σ},
      (p.andThen f).wp env I Q s ↔ p.wp env I (fun out s => (f out).wp env I Q s) s
  | .ret _, _ => Iff.rfl
  | .throw _, _ => Iff.rfl
  | .read k, s => wp_andThen (p := k s)
  | .write _ next, _ => wp_andThen (p := next)
  | .await _ k, _ => and_congr Iff.rfl (forall_congr' fun r => forall_congr' fun _ =>
      forall_congr' fun _ => wp_andThen (p := k r))

/-- What must hold after the first of two functions. -/
def follows (env : Env σ ε C R) (I : C → σ → Prop) (Q : Except ε β → σ → Prop) (f : α → Prog σ ε C R β) :
    Except ε α → σ → Prop
  | .ok a, s => (f a).wp env I Q s
  | .error e, s => Q (.error e) s

@[simp] theorem follows_ok {Q : Except ε β → σ → Prop} {f : α → Prog σ ε C R β} {a : α} {s : σ} :
    follows env I Q f (.ok a) s ↔ (f a).wp env I Q s := Iff.rfl

@[simp] theorem follows_error {Q : Except ε β → σ → Prop} {f : α → Prog σ ε C R β} {e : ε} {s : σ} :
    follows env I Q f (.error e) s ↔ Q (.error e) s := Iff.rfl

@[simp] theorem wp_bind {Q : Except ε β → σ → Prop} {p : Prog σ ε C R α} {f : α → Prog σ ε C R β} {s : σ} :
    (p >>= f).wp env I Q s ↔ p.wp env I (follows env I Q f) s := by
  refine wp_andThen.trans (iff_of_eq (congrArg (fun Q => p.wp env I Q s) ?_))
  funext out s
  cases out <;> rfl

/-- **One function after another**, by what the first is known to do. -/
theorem wp_seq {Q : Except ε β → σ → Prop} {p : Prog σ ε C R α} {f : α → Prog σ ε C R β} {s : σ}
    {Q₁ : Except ε α → σ → Prop} (hp : p.wp env I Q₁ s) (hf : ∀ a s, Q₁ (.ok a) s → (f a).wp env I Q s)
    (he : ∀ e s, Q₁ (.error e) s → Q (.error e) s) : (p >>= f).wp env I Q s := by
  refine wp_bind.2 (wp_mono (fun out s h => ?_) hp)
  cases out with
  | ok a => exact hf a s h
  | error e => exact he e s h

theorem wp_tryCatch {Q Q₁ : Except ε α → σ → Prop} {p : Prog σ ε C R α} {f : ε → Prog σ ε C R α} {s : σ}
    (hp : p.wp env I Q₁ s) (hok : ∀ a s, Q₁ (.ok a) s → Q (.ok a) s)
    (hf : ∀ e s, Q₁ (.error e) s → (f e).wp env I Q s) : (p.tryCatch f).wp env I Q s := by
  refine wp_andThen.2 (wp_mono (fun out s h => ?_) hp)
  cases out with
  | ok a => exact hok a s h
  | error e => exact hf e s h

@[simp] theorem wp_attempt {Q : Except ε (Except ε α) → σ → Prop} {p : Prog σ ε C R α} {s : σ} :
    p.attempt.wp env I Q s ↔ p.wp env I (fun out s => Q (.ok out) s) s := wp_andThen

/-- A `finally` that only changes the state. -/
@[simp] theorem wp_finallyDo_modify {Q : Except ε α → σ → Prop} {p : Prog σ ε C R α} {f : σ → σ} {s : σ} :
    (p.finallyDo (modify f)).wp env I Q s ↔ p.wp env I (fun out s => Q out (f s)) s := by
  refine wp_andThen.trans (iff_of_eq (congrArg (fun Q => p.wp env I Q s) ?_))
  funext out s
  cases out <;> rfl

@[simp] theorem wp_pure {Q : Except ε α → σ → Prop} {a : α} {s : σ} :
    (pure a : Prog σ ε C R α).wp env I Q s ↔ Q (.ok a) s := Iff.rfl

@[simp] theorem wp_ofOutcome {Q : Except ε α → σ → Prop} {out : Except ε α} {s : σ} :
    (ofOutcome out : Prog σ ε C R α).wp env I Q s ↔ Q out s := by
  cases out <;> exact Iff.rfl

@[simp] theorem wp_call {Q : Except ε α → σ → Prop} {f : σ → Except ε α × σ} {s : σ} :
    (call f : Prog σ ε C R α).wp env I Q s ↔ Q (f s).1 (f s).2 := wp_ofOutcome

@[simp] theorem wp_getState {Q : Except ε σ → σ → Prop} {s : σ} :
    (getState : Prog σ ε C R σ).wp env I Q s ↔ Q (.ok s) s := Iff.rfl

@[simp] theorem wp_throw {Q : Except ε α → σ → Prop} {e : ε} {s : σ} :
    (Prog.throw e : Prog σ ε C R α).wp env I Q s ↔ Q (.error e) s := Iff.rfl

@[simp] theorem wp_modify {Q : Except ε Unit → σ → Prop} {f : σ → σ} {s : σ} :
    (modify f : Prog σ ε C R Unit).wp env I Q s ↔ Q (.ok ()) (f s) := Iff.rfl

@[simp] theorem wp_awaitOk {c : C} {Q : Except ε (R c) → σ → Prop} {s : σ} :
    (awaitOk c : Prog σ ε C R (R c)).wp env I Q s ↔ I c s ∧ ∀ r t, env c r s t → Q r t :=
  and_congr Iff.rfl (forall_congr' fun _ => forall_congr' fun _ => forall_congr' fun _ => wp_ofOutcome)

/-! ## Waiting -/

/-- A function that waits ends well, whatever reply it gets. -/
def Waiting.wp (env : Env σ ε C R) (I : C → σ → Prop) (Q : Except ε α → σ → Prop) (w : Waiting σ ε C R α) (s : σ) : Prop :=
  I w.site s ∧ ∀ r t, env w.site r s t → (w.resume r).wp env I Q t

/-- What a segment comes to ends well. -/
def Settled (env : Env σ ε C R) (I : C → σ → Prop) (Q : Except ε α → σ → Prop) :
    (Waiting σ ε C R α ⊕ Except ε α) × σ → Prop
  | (.inl w, s) => w.wp env I Q s
  | (.inr out, s) => Q out s

/-- A function ends well when its next segment does. -/
theorem wp_segment {Q : Except ε α → σ → Prop} :
    ∀ {p : Prog σ ε C R α} {s : σ}, p.wp env I Q s ↔ Settled env I Q (p.segment s)
  | .ret _, _ => Iff.rfl
  | .throw _, _ => Iff.rfl
  | .read k, s => wp_segment (p := k s)
  | .write _ next, _ => wp_segment (p := next)
  | .await _ _, _ => Iff.rfl

/-! ## Properties that are kept -/

/-- The function keeps a property of the state, where it waits and where it ends, and its result has another. -/
def Yields (env : Env σ ε C R) (P : σ → Prop) (A : α → Prop) (p : Prog σ ε C R α) : Prop :=
  ∀ s, P s → p.wp env (fun _ => P) (fun out s => P s ∧ ∀ a, out = .ok a → A a) s

/-- The function keeps a property of the state. -/
abbrev Keeps (env : Env σ ε C R) (P : σ → Prop) (p : Prog σ ε C R α) : Prop := Yields env P (fun _ => True) p

section Yields

variable {P : σ → Prop} {A : α → Prop} {B : β → Prop}

theorem Yields.wp {p : Prog σ ε C R α} (h : Yields env P A p) {s : σ} (hs : P s) :
    p.wp env (fun _ => P) (fun out s => P s ∧ ∀ a, out = .ok a → A a) s := h s hs

theorem Yields.mono {A' : α → Prop} {p : Prog σ ε C R α} (h : Yields env P A p) (hA : ∀ a, A a → A' a) :
    Yields env P A' p :=
  fun s hs => wp_mono (fun _ _ ht => ⟨ht.1, fun a ha => hA a (ht.2 a ha)⟩) (h s hs)

theorem Yields.keeps {p : Prog σ ε C R α} (h : Yields env P A p) : Keeps env P p := h.mono fun _ _ => trivial

theorem yields_pure {a : α} (ha : A a) : Yields env P A (pure a : Prog σ ε C R α) := by
  refine fun s hs => wp_pure.2 ⟨hs, ?_⟩
  rintro _ ⟨⟩
  exact ha

theorem yields_throw (e : ε) : Yields env P A (Prog.throw e : Prog σ ε C R α) :=
  fun _ hs => wp_throw.2 ⟨hs, fun _ h => nomatch h⟩

theorem yields_ofOutcome {out : Except ε α} (h : ∀ a, out = .ok a → A a) :
    Yields env P A (ofOutcome out : Prog σ ε C R α) := fun _ hs => wp_ofOutcome.2 ⟨hs, h⟩

theorem yields_call {f : σ → Except ε α × σ} (hf : ∀ s, P s → P (f s).2) (hA : ∀ s a, P s → (f s).1 = .ok a → A a) :
    Yields env P A (call f : Prog σ ε C R α) := fun s hs => wp_call.2 ⟨hf s hs, fun a => hA s a hs⟩

theorem keeps_modify {f : σ → σ} (hf : ∀ s, P s → P (f s)) : Keeps env P (modify f : Prog σ ε C R Unit) :=
  fun s hs => wp_modify.2 ⟨hf s hs, fun _ _ => trivial⟩

theorem keeps_awaitOk {c : C} (h : ∀ r s t, env c r s t → P s → P t) : Keeps env P (awaitOk c : Prog σ ε C R (R c)) :=
  fun s hs => wp_awaitOk.2 ⟨hs, fun r t ht => ⟨h r s t ht hs, fun _ _ => trivial⟩⟩

theorem yields_bind {p : Prog σ ε C R α} {f : α → Prog σ ε C R β} (hp : Yields env P A p)
    (hf : ∀ a, A a → Yields env P B (f a)) : Yields env P B (p >>= f) :=
  fun s hs => wp_seq (hp s hs) (fun a t ht => hf a (ht.2 a rfl) t ht.1) fun _ _ ht => ⟨ht.1, fun _ h => nomatch h⟩

theorem yields_map {p : Prog σ ε C R α} {f : α → β} (hp : Yields env P A p) (hf : ∀ a, A a → B (f a)) :
    Yields env P B (f <$> p) := yields_bind hp fun a ha => yields_pure (hf a ha)

theorem yields_tryCatch {p : Prog σ ε C R α} {f : ε → Prog σ ε C R α} (hp : Yields env P A p)
    (hf : ∀ e, Yields env P A (f e)) : Yields env P A (p.tryCatch f) :=
  fun s hs => wp_tryCatch (hp s hs) (fun _ _ ht => ht) fun e t ht => hf e t ht.1

theorem yields_attempt {p : Prog σ ε C R α} (hp : Yields env P A p) :
    Yields env P (fun out => ∀ a, out = .ok a → A a) p.attempt := by
  refine fun s hs => wp_attempt.2 (wp_mono (fun out t ht => ⟨ht.1, ?_⟩) (hp s hs))
  rintro _ ⟨⟩
  exact ht.2

theorem yields_finallyDo {p : Prog σ ε C R α} {f : σ → σ} (hp : Yields env P A p) (hf : ∀ s, P s → P (f s)) :
    Yields env P A (p.finallyDo (modify f)) :=
  fun s hs => wp_finallyDo_modify.2 (wp_mono (fun _ t ht => ⟨hf t ht.1, ht.2⟩) (hp s hs))

end Yields

/-! ## Runs alone -/

/-- The run where each await gets its reply at once, and `wait` happens meanwhile. -/
def alone (reply : ∀ c, Except ε (R c)) (wait : σ → σ) : Prog σ ε C R α → σ → Except ε α × σ
  | .ret a, s => (.ok a, s)
  | .throw e, s => (.error e, s)
  | .read k, s => (k s).alone reply wait s
  | .write s next, _ => next.alone reply wait s
  | .await c k, s => (k (reply c)).alone reply wait (wait s)

theorem runs_alone {reply : ∀ c, Except ε (R c)} {wait : σ → σ} (h : ∀ c s, env c (reply c) s (wait s)) :
    ∀ (p : Prog σ ε C R α) (s : σ), Runs env p s (p.alone reply wait s).1 (p.alone reply wait s).2
  | .ret _, _ => .ret
  | .throw _, _ => .throw
  | .read k, s => .read (runs_alone h (k s) s)
  | .write t next, _ => .write (runs_alone h next t)
  | .await c k, s => .await (reply c) (h c s) (runs_alone h (k (reply c)) (wait s))

end Prog

end Async
