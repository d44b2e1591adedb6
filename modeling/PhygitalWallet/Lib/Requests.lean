import PhygitalWallet.Lib.Async
import PhygitalWallet.Lib.Runs

/-!
# Requests over one store

A service answers requests at the same time. Each request is a function without memory of its own that the others could
touch; it awaits calls, and every call takes effect on the store in one atomic step, in any order among the requests. A
call may also be lost: it is rejected, and the store has changed or not.

- `Prog.Until`: the calls that a function makes and how it ends, unless it got a good reply before, by one rule for each
  way to build it;
- `Service`, `Service.Step`: the arrivals, the calls that take effect, the changes of the store by itself;
- `Service.Run.waits`: the requests of a run wait at calls of their functions, or got a good reply before;
- `Service.Run.countP_ends`: no more ends of a kind than the good replies that they need;
- `Service.Run.replied_of_ends`: a request that ends so got a good reply before;
- `Service.Run.store`: what every call keeps of the store and the events, a run keeps;
- `Service.execAll`, `Service.solo`: runs without lost calls, computed under a check; and of one request alone.
-/

namespace Async

open Runs

variable {S T ε C : Type} {R : C → Type} {α : Type}

namespace Prog

variable {σ β : Type}

/-- The function makes these calls and ends like this, unless it got a good reply before. -/
def Until (P : C → Prop) (good : (c : C) → Except ε (R c) → Bool) (Q : Except ε α → Prop) : Prog σ ε C R α → Prop
  | .ret a => Q (.ok a)
  | .throw e => Q (.error e)
  | .read k => ∀ s, (k s).Until P good Q
  | .write _ next => next.Until P good Q
  | .await c k => P c ∧ ∀ r, good c r = true ∨ (k r).Until P good Q

section Until

variable {P : C → Prop} {good : (c : C) → Except ε (R c) → Bool}

theorem until_andThen {Q : Except ε α → Prop} {Q' : Except ε β → Prop} {f : Except ε α → Prog σ ε C R β}
    (hf : ∀ out, Q out → (f out).Until P good Q') :
    ∀ {p : Prog σ ε C R α}, p.Until P good Q → (p.andThen f).Until P good Q'
  | .ret a, h => hf (.ok a) h
  | .throw e, h => hf (.error e) h
  | .read k, h => fun s => until_andThen hf (p := k s) (h s)
  | .write _ next, h => until_andThen hf (p := next) h
  | .await _ k, h => ⟨h.1, fun r => (h.2 r).imp_right fun hr => until_andThen hf (p := k r) hr⟩

theorem until_trivial {Q : Except ε α → Prop} (hcalls : ∀ c, P c) (h : ∀ out, Q out) :
    ∀ p : Prog σ ε C R α, p.Until P good Q
  | .ret a => h (.ok a)
  | .throw e => h (.error e)
  | .read k => fun s => until_trivial hcalls h (k s)
  | .write _ next => until_trivial hcalls h next
  | .await c k => ⟨hcalls c, fun r => Or.inr (until_trivial hcalls h (k r))⟩

theorem until_ofOutcome {Q : Except ε α → Prop} {out : Except ε α} (h : Q out) :
    (ofOutcome out : Prog σ ε C R α).Until P good Q := by
  cases out <;> exact h

theorem until_awaitOk {c : C} {Q : Except ε (R c) → Prop} (hcall : P c) (h : ∀ r, good c r = true ∨ Q r) :
    (awaitOk c : Prog σ ε C R (R c)).Until P good Q :=
  ⟨hcall, fun r => (h r).imp_right until_ofOutcome⟩

theorem until_bind {Q : Except ε α → Prop} {Q' : Except ε β → Prop} {p : Prog σ ε C R α} {f : α → Prog σ ε C R β}
    (hp : p.Until P good Q) (hok : ∀ a, Q (.ok a) → (f a).Until P good Q') (herror : ∀ e, Q (.error e) → Q' (.error e)) :
    (p >>= f).Until P good Q' := by
  refine until_andThen (fun out hout => ?_) hp
  cases out with
  | ok a => exact hok a hout
  | error e => exact herror e hout

theorem until_tryCatch {Q Q' : Except ε α → Prop} {p : Prog σ ε C R α} {f : ε → Prog σ ε C R α} (hp : p.Until P good Q)
    (hok : ∀ a, Q (.ok a) → Q' (.ok a)) (herror : ∀ e, Q (.error e) → (f e).Until P good Q') :
    (p.tryCatch f).Until P good Q' := by
  refine until_andThen (fun out hout => ?_) hp
  cases out with
  | ok a => exact hok a hout
  | error e => exact herror e hout

theorem until_ite {c : Prop} [Decidable c] {p q : Prog σ ε C R α} {Q : Except ε α → Prop} (hp : p.Until P good Q)
    (hq : q.Until P good Q) : (if c then p else q).Until P good Q := by
  split
  · exact hp
  · exact hq

section Loop

variable {f : β → α → Prog σ ε C R β} {l : List α}

/-- A loop makes the calls of its turns. -/
theorem until_foldlM (h : ∀ b, ∀ a ∈ l, (f b a).Until P good fun _ => True) (b : β) :
    (l.foldlM f b).Until P good fun _ => True := by
  induction l generalizing b with
  | nil => trivial
  | cons a l ih =>
    rw [List.foldlM_cons]
    exact until_bind (h b a List.mem_cons_self) (fun b' _ => ih (fun b x hx => h b x (List.mem_cons_of_mem _ hx)) b')
      fun _ _ => trivial

/-- A loop that needs a good reply for one of its turns. -/
theorem until_foldlM_of_mem (h : ∀ b, ∀ a ∈ l, (f b a).Until P good fun _ => True) {a : α} (ha : a ∈ l)
    (hneeds : ∀ b, (f b a).Until P good fun out => out.isOk = false) (b : β) :
    (l.foldlM f b).Until P good fun out => out.isOk = false := by
  induction l generalizing b with
  | nil => cases ha
  | cons x l ih =>
    rw [List.foldlM_cons]
    rcases List.mem_cons.1 ha with rfl | ha
    · exact until_bind (hneeds b) (fun _ hok => nomatch hok) fun _ _ => rfl
    · exact until_bind (h b x List.mem_cons_self)
        (fun b' _ => ih (fun b y hy => h b y (List.mem_cons_of_mem _ hy)) ha b') fun _ _ => rfl

end Loop

section Via

variable {C' : Type} {R' : C' → Type} {call : (c : C') → Prog σ ε C R (R' c)}

/-- A function whose calls are calls of another kind. -/
def via (call : (c : C') → Prog σ ε C R (R' c)) : Prog σ ε C' R' α → Prog σ ε C R α
  | .ret a => .ret a
  | .throw e => .throw e
  | .read k => .read fun s => via call (k s)
  | .write s next => .write s (via call next)
  | .await c k => (call c).andThen fun r => via call (k r)

theorem until_via {P' : C' → Prop} {good' : (c : C') → Except ε (R' c) → Bool} {Q : Except ε α → Prop}
    (hcall : ∀ c, P' c → (call c).Until P good fun r => good' c r = false) :
    ∀ {p : Prog σ ε C' R' α}, p.Until P' good' Q → (p.via call).Until P good Q
  | .ret _, h => h
  | .throw _, h => h
  | .read k, h => fun s => until_via hcall (p := k s) (h s)
  | .write _ next, h => until_via hcall (p := next) h
  | .await c k, h => until_andThen (fun r hr =>
      until_via hcall (p := k r) ((h.2 r).resolve_left (by rw [hr]; exact Bool.false_ne_true))) (hcall c h.1)

end Via

/-- What a segment comes to. -/
theorem Until.segment {Q : Except ε α → Prop} : ∀ {p : Prog σ ε C R α} {s : σ}, p.Until P good Q →
    (∀ w, (p.segment s).1 = .inl w → P w.site ∧ ∀ r, good w.site r = true ∨ (w.resume r).Until P good Q) ∧
      ∀ out, (p.segment s).1 = .inr out → Q out
  | .ret _, _, h => by
    refine ⟨fun _ hw => (nomatch hw), fun out hout => ?_⟩
    cases hout
    exact h
  | .throw _, _, h => by
    refine ⟨fun _ hw => (nomatch hw), fun out hout => ?_⟩
    cases hout
    exact h
  | .read k, s, h => Until.segment (p := k s) (h s)
  | .write t next, _, h => Until.segment (p := next) (s := t) h
  | .await _ _, _, h => by
    refine ⟨fun w hw => ?_, fun _ hout => nomatch hout⟩
    cases hw
    exact h

end Until

end Prog

/-! ## A service -/

/-- What the requests run, what a call does to the store, and how the store changes by itself. -/
structure Service (S T ε C : Type) (R : C → Type) (α : Type) where
  handler : T → Prog Unit ε C R α
  exec : (c : C) → S → Except ε (R c) × S
  drift : S → S → Prop

/-- A request that waits for a call. -/
structure Request (T ε C : Type) (R : C → Type) (α : Type) where
  tag : T
  waiting : Prog.Waiting Unit ε C R α

structure Server (S T ε C : Type) (R : C → Type) (α : Type) where
  store : S
  pool : List (Request T ε C R α)

/-- What is seen from outside; `out` is how the request ended, if it did. -/
inductive Event (T ε C : Type) (R : C → Type) (α : Type)
  | arrive (tag : T) (out : Option (Except ε α))
  | reply (tag : T) (c : C) (r : Except ε (R c)) (out : Option (Except ε α))
  | drift

/-- The event is the end of a request, like this. -/
def Event.ends (bad : T → Except ε α → Bool) : Event T ε C R α → Bool
  | .arrive tag out => out.any (bad tag)
  | .reply tag _ _ out => out.any (bad tag)
  | .drift => false

/-- The event is a reply like this. -/
def Event.replied (good : T → (c : C) → Except ε (R c) → Bool) : Event T ε C R α → Bool
  | .reply tag c r _ => good tag c r
  | _ => false

/-- A request up to its next call. -/
def goOn (tag : T) (p : Prog Unit ε C R α) : List (Request T ε C R α) × Option (Except ε α) :=
  match (p.segment ()).1 with
  | .inl w => ([⟨tag, w⟩], none)
  | .inr out => ([], some out)

/-- What is in a list whose one entry was replaced. -/
theorem mem_replace {β : Type} {before after new : List β} {x : β} (old : β) (h : x ∈ before ++ new ++ after) :
    x ∈ before ++ old :: after ∨ x ∈ new := by
  rcases List.mem_append.1 h with h | hafter
  · rcases List.mem_append.1 h with hbefore | hnew
    · exact Or.inl (List.mem_append_left _ hbefore)
    · exact Or.inr hnew
  · exact Or.inl (List.mem_append_right _ (List.mem_cons_of_mem _ hafter))

namespace Service

variable (service : Service S T ε C R α)

/-- A call takes effect, or is lost. -/
def Takes (c : C) (s : S) (r : Except ε (R c)) (s' : S) : Prop :=
  (r, s') = service.exec c s ∨ ∃ e, r = .error e ∧ (s' = s ∨ s' = (service.exec c s).2)

inductive Step : Event T ε C R α → Server S T ε C R α → Server S T ε C R α → Prop
  | arrive (tag : T) {store : S} {pool : List (Request T ε C R α)} :
      Step (.arrive tag (goOn tag (service.handler tag)).2) ⟨store, pool⟩
        ⟨store, pool ++ (goOn tag (service.handler tag)).1⟩
  | reply {store store' : S} (before after : List (Request T ε C R α)) (request : Request T ε C R α)
      (r : Except ε (R request.waiting.site)) (h : service.Takes request.waiting.site store r store') :
      Step (.reply request.tag request.waiting.site r (goOn request.tag (request.waiting.resume r)).2)
        ⟨store, before ++ request :: after⟩
        ⟨store', before ++ (goOn request.tag (request.waiting.resume r)).1 ++ after⟩
  | drift {store store' : S} {pool : List (Request T ε C R α)} (h : service.drift store store') :
      Step .drift ⟨store, pool⟩ ⟨store', pool⟩

/-- The runs from a store, with no request yet. -/
abbrev Runs (s₀ : S) : List (Event T ε C R α) → Server S T ε C R α → Prop := Run service.Step ⟨s₀, []⟩

variable {service}

/-! ## The requests of a run -/

section Until

variable {P : T → C → Prop} {good : T → (c : C) → Except ε (R c) → Bool} {Q : T → Except ε α → Prop}
  {bad : T → Except ε α → Bool}

/-- The request got no good reply yet: it makes its calls and ends as its function says. -/
def Waits (P : T → C → Prop) (good : T → (c : C) → Except ε (R c) → Bool) (Q : T → Except ε α → Prop)
    (request : Request T ε C R α) : Prop :=
  P request.tag request.waiting.site ∧ ∀ r, good request.tag request.waiting.site r = true ∨
    (request.waiting.resume r).Until (P request.tag) (good request.tag) (Q request.tag)

theorem goOn_tag {tag : T} {p : Prog Unit ε C R α} : ∀ request ∈ (goOn tag p).1, request.tag = tag := by
  intro request hrequest
  unfold goOn at hrequest
  split at hrequest
  · rw [List.mem_singleton.1 hrequest]
  · cases hrequest

theorem waits_goOn {tag : T} {p : Prog Unit ε C R α} (h : p.Until (P tag) (good tag) (Q tag)) :
    (∀ request ∈ (goOn tag p).1, Waits P good Q request) ∧ ∀ out, (goOn tag p).2 = some out → Q tag out := by
  obtain ⟨hwait, hend⟩ := h.segment (s := ())
  unfold goOn
  split
  · next w hw =>
    refine ⟨fun request hrequest => ?_, fun _ hout => nomatch hout⟩
    rw [List.mem_singleton.1 hrequest]
    exact hwait w hw
  · next out hout =>
    refine ⟨fun _ hrequest => (nomatch hrequest), fun out' hout' => ?_⟩
    cases hout'
    exact hend _ hout

/-- The request got a good reply. -/
def GoodReply (good : T → (c : C) → Except ε (R c) → Bool) (events : List (Event T ε C R α)) (tag : T) : Prop :=
  ∃ c r out, Event.reply tag c r out ∈ events ∧ good tag c r = true

theorem GoodReply.mono {events : List (Event T ε C R α)} {tag : T} (h : GoodReply good events tag)
    (event : Event T ε C R α) : GoodReply good (events ++ [event]) tag := by
  obtain ⟨c, r, out, hmem, hgood⟩ := h
  exact ⟨c, r, out, List.mem_append_left _ hmem, hgood⟩

/-- **The requests that wait** are at calls of their functions, or got a good reply before. -/
theorem Run.waits (hhandler : ∀ tag, (service.handler tag).Until (P tag) (good tag) (Q tag)) {s₀ : S}
    {events : List (Event T ε C R α)} {server : Server S T ε C R α} (hrun : service.Runs s₀ events server) :
    ∀ request ∈ server.pool, Waits P good Q request ∨ GoodReply good events request.tag := by
  refine hrun.tracked (I := fun events server => ∀ request ∈ server.pool, Waits P good Q request ∨
    GoodReply good events request.tag) (by simp) fun events event server server' _ hpool hstep => ?_
  cases hstep with
  | arrive tag =>
    intro request hrequest
    rcases List.mem_append.1 hrequest with hold | hnew
    · exact (hpool request hold).imp_right fun h => h.mono _
    · exact Or.inl ((waits_goOn (hhandler tag)).1 request hnew)
  | reply before after request r _ =>
    intro other hother
    rcases mem_replace request hother with hold | hnext
    · exact (hpool other hold).imp_right fun h => h.mono _
    · rcases hpool request (List.mem_append_right _ List.mem_cons_self) with hwaits | hgood
      · rcases hwaits.2 r with hgood | huntil
        · refine Or.inr ?_
          rw [goOn_tag other hnext]
          exact ⟨_, r, _, List.mem_append_right _ List.mem_cons_self, hgood⟩
        · exact Or.inl ((waits_goOn huntil).1 other hnext)
      · refine Or.inr ?_
        rw [goOn_tag other hnext]
        exact hgood.mono _
  | drift _ => exact fun request hrequest => (hpool request hrequest).imp_right fun h => h.mono _

/-! ## How often requests end -/

open Classical in
/-- The requests that got a good reply and wait on. -/
noncomputable def served (P : T → C → Prop) (good : T → (c : C) → Except ε (R c) → Bool)
    (bad : T → Except ε α → Bool) (pool : List (Request T ε C R α)) : Nat :=
  pool.countP fun request => decide (¬ Waits P good (fun tag out => bad tag out = false) request)

theorem served_append (pool pool' : List (Request T ε C R α)) :
    served P good bad (pool ++ pool') = served P good bad pool + served P good bad pool' := List.countP_append

/-- A request goes on as one request, or ends once. -/
theorem served_goOn_le (tag : T) (p : Prog Unit ε C R α) :
    served P good bad (goOn tag p).1 + ((goOn tag p).2.any (bad tag)).toNat ≤ 1 := by
  unfold goOn
  split
  · exact List.countP_le_length
  · simpa [served] using Bool.toNat_le _

/-- Without a good reply it goes on so, or ends otherwise. -/
theorem served_goOn_until {tag : T} {p : Prog Unit ε C R α}
    (h : p.Until (P tag) (good tag) fun out => bad tag out = false) :
    served P good bad (goOn tag p).1 + ((goOn tag p).2.any (bad tag)).toNat = 0 := by
  obtain ⟨hwait, hend⟩ := h.segment (s := ())
  unfold goOn
  split
  · next w hw =>
    have hwaits : Waits P good (fun tag out => bad tag out = false) ⟨tag, w⟩ := hwait w hw
    simp [served, hwaits]
  · next out hout => simp [served, hend out hout]

/-- One step: the ends and the requests to come stay within the good replies. -/
theorem Step.countP_ends (hhandler : ∀ tag, (service.handler tag).Until (P tag) (good tag)
      fun out => bad tag out = false) {event : Event T ε C R α} {server server' : Server S T ε C R α}
    (h : service.Step event server server') :
    (event.ends bad).toNat + served P good bad server'.pool ≤
      (event.replied good).toNat + served P good bad server.pool := by
  cases h with
  | @arrive tag store pool =>
    have hnew := served_goOn_until (hhandler tag)
    simp only [Event.ends, Event.replied, Bool.toNat_false, served_append]
    omega
  | reply before after request r htakes =>
    have hone : served P good bad (goOn request.tag (request.waiting.resume r)).1 + _ ≤ 1 := served_goOn_le request.tag _
    have hcons : served P good bad (request :: after) = served P good bad [request] + served P good bad after :=
      served_append [request] after
    simp only [Event.ends, Event.replied, served_append, hcons]
    by_cases hwaits : Waits P good (fun tag out => bad tag out = false) request
    · rcases hwaits.2 r with hgood | huntil
      · rw [hgood, Bool.toNat_true]
        omega
      · have hnone := served_goOn_until huntil
        omega
    · have hserved : served P good bad [request] = 1 := by simp [served, hwaits]
      omega
  | drift h => exact Nat.le_refl _

/-- **No more ends than good replies**, where no request ends so before its good reply. -/
theorem Run.countP_ends (hhandler : ∀ tag, (service.handler tag).Until (P tag) (good tag)
      fun out => bad tag out = false) {s₀ : S} {events : List (Event T ε C R α)} {server : Server S T ε C R α}
    (hrun : service.Runs s₀ events server) :
    events.countP (Event.ends bad) ≤ events.countP (Event.replied good) := by
  have hinv : events.countP (Event.ends bad) + served P good bad server.pool ≤ events.countP (Event.replied good) := by
    refine hrun.tracked (I := fun events server =>
      events.countP (Event.ends bad) + served P good bad server.pool ≤ events.countP (Event.replied good))
      (by simp [served]) ?_
    intro events event server server' _ hcount hstep
    have hone := hstep.countP_ends hhandler
    have hend : [event].countP (Event.ends bad) = (event.ends bad).toNat := by
      cases h : event.ends bad <;> simp [h]
    have hreply : [event].countP (Event.replied good) = (event.replied good).toNat := by
      cases h : event.replied good <;> simp [h]
    rw [List.countP_append, List.countP_append, hend, hreply]
    omega
  omega

/-- **A request that ends so** got a good reply before, where its function does not end so without one. -/
theorem Run.replied_of_ends [DecidableEq T] {tag : T} {good : (c : C) → Except ε (R c) → Bool} {bad : Except ε α → Bool}
    (hhandler : (service.handler tag).Until (fun _ => True) good fun out => bad out = false) {s₀ : S}
    {events : List (Event T ε C R α)} {server : Server S T ε C R α} (hrun : service.Runs s₀ events server)
    {event : Event T ε C R α} (hmem : event ∈ events) (hend : event.ends (fun t out => decide (t = tag) && bad out) = true) :
    ∃ c r out, .reply tag c r out ∈ events ∧ good c r = true := by
  have hcount : events.countP (Event.ends fun t out => decide (t = tag) && bad out) ≤
      events.countP (Event.replied fun t c r => decide (t = tag) && good c r) := by
    refine Run.countP_ends (P := fun _ _ => True) (fun t => ?_) hrun
    by_cases htag : t = tag
    · subst htag
      simpa using hhandler
    · simpa [htag] using Prog.until_trivial (fun _ => trivial) (fun _ => trivial) _
  have hpos : 0 < events.countP (Event.replied fun t c r => decide (t = tag) && good c r) :=
    Nat.lt_of_lt_of_le (List.countP_pos_iff.2 ⟨event, hmem, hend⟩) hcount
  obtain ⟨reply, hreply, hgood⟩ := List.countP_pos_iff.1 hpos
  cases reply with
  | reply t c r out =>
    have hboth : (decide (t = tag) && good c r) = true := hgood
    rw [Bool.and_eq_true, decide_eq_true_eq] at hboth
    obtain ⟨rfl, hok⟩ := hboth
    exact ⟨c, r, out, hreply, hok⟩
  | arrive => cases hgood
  | drift => cases hgood

end Until

/-- The requests of a run have arrived. -/
theorem Run.arrived {s₀ : S} {events : List (Event T ε C R α)} {server : Server S T ε C R α}
    (hrun : service.Runs s₀ events server) : ∀ request ∈ server.pool, ∃ out, .arrive request.tag out ∈ events := by
  refine hrun.tracked (I := fun events server => ∀ request ∈ server.pool, ∃ out, .arrive request.tag out ∈ events)
    (by simp) fun events event server server' _ hpool hstep => ?_
  cases hstep with
  | arrive tag =>
    intro request hrequest
    rcases List.mem_append.1 hrequest with hold | hnew
    · exact (hpool request hold).imp fun out => List.mem_append_left _
    · rw [goOn_tag request hnew]
      exact ⟨_, List.mem_append_right _ List.mem_cons_self⟩
  | reply before after request r _ =>
    intro other hother
    have hrequest := hpool request (List.mem_append_right _ List.mem_cons_self)
    rcases mem_replace request hother with hold | hnext
    · exact (hpool other hold).imp fun out => List.mem_append_left _
    · rw [goOn_tag other hnext]
      exact hrequest.imp fun out => List.mem_append_left _
  | drift _ => exact fun request hrequest => (hpool request hrequest).imp fun out => List.mem_append_left _

/-! ## Properties of the store -/

/-- A step changes the store by a call of a request that waits, or by itself. -/
theorem Step.store {event : Event T ε C R α} {server server' : Server S T ε C R α}
    (h : service.Step event server server') :
    server'.store = server.store ∨ (∃ c r, service.Takes c server.store r server'.store) ∨
      service.drift server.store server'.store := by
  cases h with
  | arrive tag => exact Or.inl rfl
  | reply before after request r htakes => exact Or.inr (Or.inl ⟨_, r, htakes⟩)
  | drift h => exact Or.inr (Or.inr h)

/-- **What every call keeps, a run keeps**: a property of the events so far and the store; `Allowed` is what is assumed of
each step. -/
theorem Run.store {Allowed : Event T ε C R α → Server S T ε C R α → Prop} {I : List (Event T ε C R α) → S → Prop} {s₀ : S}
    (h₀ : I [] s₀) (harrive : ∀ events tag out s, I events s → I (events ++ [.arrive tag out]) s)
    (hreply : ∀ events (server : Server S T ε C R α), service.Runs s₀ events server → ∀ request ∈ server.pool,
      ∀ r out s', Allowed (.reply request.tag request.waiting.site r out) server →
      service.Takes request.waiting.site server.store r s' → I events server.store →
      I (events ++ [.reply request.tag request.waiting.site r out]) s')
    (hdrift : ∀ events s s', service.drift s s' → I events s → I (events ++ [.drift]) s')
    {events : List (Event T ε C R α)} {server : Server S T ε C R α}
    (hrun : Run (fun event server server' => service.Step event server server' ∧ Allowed event server) ⟨s₀, []⟩ events
      server) : I events server.store := by
  refine hrun.tracked (I := fun events server => I events server.store) h₀ fun events event server server' hbefore hI hstep => ?_
  obtain ⟨hstep, hallowed⟩ := hstep
  cases hstep with
  | arrive tag => exact harrive events tag _ _ hI
  | reply before after request r htakes =>
    exact hreply events _ (hbefore.mono fun _ _ _ h => h.1) request (List.mem_append_right _ List.mem_cons_self) r _ _
      hallowed htakes hI
  | drift h => exact hdrift events _ _ h hI

/-! ## Runs that are computed -/

/-- A request arrives, or the call at a place in the pool takes effect. -/
inductive Move (T : Type)
  | arrive (tag : T)
  | serve (i : Nat)
deriving DecidableEq, Repr

variable (service) in
/-- One move without a lost call. -/
def move (server : Server S T ε C R α) : Move T → Option (Event T ε C R α × Server S T ε C R α)
  | .arrive tag =>
    let next := goOn tag (service.handler tag)
    some (.arrive tag next.2, ⟨server.store, server.pool ++ next.1⟩)
  | .serve i =>
    match server.pool.drop i with
    | [] => none
    | request :: after =>
      let done := service.exec request.waiting.site server.store
      let next := goOn request.tag (request.waiting.resume done.1)
      some (.reply request.tag request.waiting.site done.1 next.2, ⟨done.2, server.pool.take i ++ next.1 ++ after⟩)

variable (service) in
/-- Moves in a row, with what is seen of them; each passes a check. -/
def execAll (check : Event T ε C R α → Server S T ε C R α → Bool) (server : Server S T ε C R α) :
    List (Move T) → Option (List (Event T ε C R α) × Server S T ε C R α)
  | [] => some ([], server)
  | m :: moves => do
    let (event, next) ← service.move server m
    if check event server then
      let (events, last) ← execAll check next moves
      return (event :: events, last)
    else none

theorem step_of_move {server server' : Server S T ε C R α} {m : Move T} {event : Event T ε C R α}
    (h : service.move server m = some (event, server')) : service.Step event server server' := by
  obtain ⟨store, pool⟩ := server
  cases m with
  | arrive tag =>
    cases h
    exact .arrive tag
  | serve i =>
    simp only [move] at h
    split at h
    · cases h
    · next request after hdrop =>
      cases h
      have hpool : pool = pool.take i ++ request :: after := by rw [← hdrop, List.take_append_drop]
      have hstep : service.Step _ ⟨store, pool.take i ++ request :: after⟩ _ :=
        .reply (pool.take i) after request (service.exec request.waiting.site store).1 (Or.inl rfl)
      rw [← hpool] at hstep
      exact hstep

/-- A request that arrives where no other waits. -/
theorem step_arrive {tag : T} {p : Prog Unit ε C R α} (hhandler : service.handler tag = p) (s : S) :
    service.Step (.arrive tag (goOn tag p).2) ⟨s, []⟩ ⟨s, (goOn tag p).1⟩ := by
  subst hhandler
  exact .arrive tag

/-- The reply to a request where no other waits. -/
theorem step_reply {tag : T} {c : C} {k : Except ε (R c) → Prog Unit ε C R α} {r : Except ε (R c)} {s s' : S}
    {p : Prog Unit ε C R α} (htakes : service.Takes c s r s') (hnext : k r = p) :
    service.Step (.reply tag c r (goOn tag p).2) ⟨s, [⟨tag, ⟨c, k⟩⟩]⟩ ⟨s', (goOn tag p).1⟩ := by
  subst hnext
  simpa using Step.reply [] [] ⟨tag, ⟨c, k⟩⟩ r htakes

variable (service) in
/-- What a request comes to that nobody disturbs. -/
def solo {β : Type} : Prog Unit ε C R β → S → Except ε β × S
  | .ret a, s => (.ok a, s)
  | .throw e, s => (.error e, s)
  | .read k, s => solo (k ()) s
  | .write _ next, s => solo next s
  | .await c k, s => solo (k (service.exec c s).1) (service.exec c s).2

theorem solo_andThen {β γ : Type} (f : Except ε β → Prog Unit ε C R γ) : ∀ (p : Prog Unit ε C R β) (s : S),
    service.solo (p.andThen f) s = service.solo (f (service.solo p s).1) (service.solo p s).2
  | .ret _, _ => rfl
  | .throw _, _ => rfl
  | .read k, s => solo_andThen f (k ()) s
  | .write _ next, s => solo_andThen f next s
  | .await _ k, _ => solo_andThen f (k _) _

theorem solo_bind {β γ : Type} {p : Prog Unit ε C R β} {s s' : S} {b : β} (h : service.solo p s = (.ok b, s'))
    (f : β → Prog Unit ε C R γ) : service.solo (p >>= f) s = service.solo (f b) s' := by
  show service.solo (p.andThen _) s = _
  rw [solo_andThen, h]

theorem solo_awaitOk (c : C) (s : S) : service.solo (Prog.awaitOk c) s = service.exec c s := by
  show service.solo (Prog.ofOutcome (service.exec c s).1) (service.exec c s).2 = _
  rcases service.exec c s with ⟨r, s'⟩
  cases r <;> rfl

theorem solo_tryCatch {β : Type} {p : Prog Unit ε C R β} {s s' : S} {b : β} (h : service.solo p s = (.ok b, s'))
    (f : ε → Prog Unit ε C R β) : service.solo (p.tryCatch f) s = (.ok b, s') := by
  rw [Prog.tryCatch, solo_andThen, h]
  rfl

theorem run_goOn (tag : T) : ∀ (p : Prog Unit ε C R α) (s : S),
    ∃ events, Run service.Step ⟨s, (goOn tag p).1⟩ events ⟨(service.solo p s).2, []⟩
  | .ret _, _ => ⟨[], .nil⟩
  | .throw _, _ => ⟨[], .nil⟩
  | .read k, s => run_goOn tag (k ()) s
  | .write _ next, s => run_goOn tag next s
  | .await c k, s => by
    obtain ⟨events, hrun⟩ := run_goOn tag (k (service.exec c s).1) (service.exec c s).2
    exact ⟨_, (Run.nil.snoc (step_reply (Or.inl rfl) rfl)).append hrun⟩

/-- Alone, a request runs to its end. -/
theorem run_solo (tag : T) (s : S) :
    ∃ events, Run service.Step ⟨s, []⟩ events ⟨(service.solo (service.handler tag) s).2, []⟩ := by
  obtain ⟨events, hrun⟩ : ∃ events, Run service.Step ⟨s, (goOn tag (service.handler tag)).1⟩ events _ :=
    run_goOn tag (service.handler tag) s
  exact ⟨_, (Run.nil.snoc (step_arrive rfl s)).append hrun⟩

/-- Computed moves are a run, whose steps pass the check. -/
theorem run_of_execAll {check : Event T ε C R α → Server S T ε C R α → Bool} {s₀ : Server S T ε C R α} :
    ∀ {moves : List (Move T)} {past events : List (Event T ε C R α)} {server last : Server S T ε C R α},
      Run (fun event server server' => service.Step event server server' ∧ check event server = true) s₀ past server →
      service.execAll check server moves = some (events, last) →
      Run (fun event server server' => service.Step event server server' ∧ check event server = true) s₀ (past ++ events) last
  | [], past, events, server, last, hrun, h => by
    cases h
    rwa [List.append_nil]
  | m :: moves, past, events, server, last, hrun, h => by
    rw [execAll] at h
    obtain ⟨⟨event, next⟩, hmove, h⟩ := Option.bind_eq_some_iff.1 h
    simp only at h
    split at h
    · next hcheck =>
      obtain ⟨⟨rest, final⟩, hrest, h⟩ := Option.bind_eq_some_iff.1 h
      cases h
      have htail := run_of_execAll (.snoc hrun ⟨step_of_move hmove, hcheck⟩) hrest
      rwa [List.append_assoc] at htail
    · cases h

end Service

end Async
