import PhygitalWallet.Lib.JsText
import PhygitalWallet.Secure.System

/-!
# Requests that come again (`state.ts`, `main.ts`)

The listener checks every request, and remembers the ones it accepts: the last 512 of them.

- `Listener`: what the listener keeps, and the arrivals it accepted;
- `Remembers`: the memory is the end of the accepted requests;
- `Listener.CrowdedOut`: a request that has been forgotten while its first timestamp is still fresh;
- `replay_window`: nothing else is accepted twice within the window;
- `run_seen`: the signer's listener among its other steps.
-/

namespace PhygitalWallet.Secure

/-! ## The listener -/

/-- A valid message, at a time of the signer's clock. -/
structure Arrival where
  requestId : String
  timestamp : ℚ
  now : ℚ
deriving DecidableEq

/-- The requests that were seen, with what was accepted. -/
structure Listener where
  seen : SeenRequests
  accepted : List Arrival

namespace Listener

def start : Listener := ⟨.empty, []⟩

/-- What the listener answers, if it does not accept the request. -/
def replay (l : Listener) (a : Arrival) : Option ErrorCode :=
  l.seen.checkFreshnessAndReplay a.now a.requestId a.timestamp

def receive (l : Listener) (a : Arrival) : Listener :=
  match l.replay a with
  | some _ => l
  | none => ⟨l.seen.remember a.requestId, l.accepted ++ [a]⟩

def run (as : List Arrival) : Listener := as.foldl receive start

/-- The first acceptance of a request. -/
def first (l : Listener) (requestId : String) : Option Arrival := l.accepted.find? fun b => b.requestId = requestId

end Listener

/-- A timestamp is in the window around the clock. -/
def InWindow (now timestamp : ℚ) : Prop := |now - timestamp| ≤ requestFreshnessWindowMs

/-! ## The end of a list -/

section Recent

variable {α : Type} [DecidableEq α]

/-- How many elements come after the last `x`. -/
def since (x : α) (xs : List α) : Nat := (xs.reverse.takeWhile (· ≠ x)).length

theorem mem_take_iff (x : α) (n : Nat) (ys : List α) :
    x ∈ ys.take n ↔ x ∈ ys ∧ (ys.takeWhile (· ≠ x)).length < n := by
  induction ys generalizing n with
  | nil => simp
  | cons y ys ih =>
    cases n with
    | zero => simp
    | succ n =>
      by_cases hy : y = x
      · subst hy
        simp
      · have hx : x ≠ y := fun h => hy h.symm
        rw [List.take_succ_cons, List.mem_cons, List.mem_cons, List.takeWhile_cons_of_pos (by simpa using hy),
          List.length_cons, ih, Nat.add_lt_add_iff_right]
        simp only [hx, false_or]

/-- What is in the last `n` elements. -/
theorem mem_last_iff (x : α) (n : Nat) (xs : List α) : x ∈ xs.drop (xs.length - n) ↔ x ∈ xs ∧ since x xs < n := by
  rw [← List.mem_reverse, ← List.take_reverse, mem_take_iff, List.mem_reverse]
  rfl

end Recent

/-! ## The memory -/

/-- The memory holds the last 512 of the accepted requests. -/
structure Remembers (s : SeenRequests) (ids : List String) : Prop where
  order : s.seenOrder = ids.drop (ids.length - seenRequestIdsLimit)
  seen : ∀ id, id ∈ s.seen ↔ id ∈ s.seenOrder
  nodup : s.seenOrder.Nodup

theorem remembers_empty : Remembers .empty [] := ⟨rfl, fun _ => by simp [SeenRequests.empty], List.nodup_nil⟩

namespace Remembers

variable {s : SeenRequests} {ids : List String} (h : Remembers s ids)
include h

theorem length_le : s.seenOrder.length ≤ seenRequestIdsLimit := by
  rw [h.order, List.length_drop]
  omega

theorem mem_seen_iff (id : String) : id ∈ s.seen ↔ id ∈ ids ∧ since id ids < seenRequestIdsLimit := by
  rw [h.seen, h.order, mem_last_iff]

/-- A request that is not known pushes out the oldest one, once the memory is full. -/
theorem remember {id : String} (hid : id ∉ s.seen) : Remembers (s.remember id) (ids ++ [id]) := by
  have hnew : id ∉ s.seenOrder := fun hmem => hid ((h.seen id).2 hmem)
  have hnodup : (s.seenOrder ++ [id]).Nodup := by
    rw [List.nodup_append]
    exact ⟨h.nodup, List.nodup_singleton id, fun a ha b hb hab =>
      hnew (by rw [← List.mem_singleton.1 hb, ← hab]; exact ha)⟩
  have hmem : ∀ x, x ∈ insert id s.seen ↔ x ∈ s.seenOrder ++ [id] := by
    intro x
    rw [Finset.mem_insert, h.seen, List.mem_append, List.mem_singleton, or_comm]
  have hlen : s.seenOrder.length = min ids.length seenRequestIdsLimit := by
    rw [h.order, List.length_drop]
    omega
  have hlast : ∀ k, k ≤ ids.length → (ids ++ [id]).drop k = ids.drop k ++ [id] := fun k hk =>
    List.drop_append_of_le_length hk
  unfold SeenRequests.remember
  rw [if_neg hid]
  cases horder : s.seenOrder ++ [id] with
  | nil => simp at horder
  | cons evicted rest =>
    have hcount : (evicted :: rest).length = s.seenOrder.length + 1 := by
      rw [← horder, List.length_append, List.length_singleton]
    rw [horder] at hnodup hmem
    simp only
    split
    · next hfull =>
      refine ⟨?_, fun x => ?_, (List.nodup_cons.1 hnodup).2⟩
      · have hpos : seenRequestIdsLimit ≤ ids.length := by omega
        have hdrop : rest = (s.seenOrder ++ [id]).drop 1 := by
          rw [horder]
          rfl
        have hshift : ids.length - seenRequestIdsLimit + 1 = ids.length + 1 - seenRequestIdsLimit := by omega
        rw [hdrop, h.order, ← hlast _ (Nat.sub_le _ _), List.drop_drop, List.length_append, List.length_singleton, hshift]
      · rw [Finset.mem_erase, hmem, List.mem_cons]
        constructor
        · rintro ⟨hne, rfl | hrest⟩
          · exact absurd rfl hne
          · exact hrest
        · intro hrest
          refine ⟨?_, Or.inr hrest⟩
          rintro rfl
          exact (List.nodup_cons.1 hnodup).1 hrest
    · next hfits =>
      refine ⟨?_, hmem, hnodup⟩
      have hshort : ids.length + 1 ≤ seenRequestIdsLimit := by omega
      have hall : s.seenOrder = ids := by
        rw [h.order, Nat.sub_eq_zero_of_le (by omega), List.drop_zero]
      show evicted :: rest = _
      rw [← horder, hall, Nat.sub_eq_zero_of_le (by rw [List.length_append, List.length_singleton]; exact hshort),
        List.drop_zero]

end Remembers

/-! ## Runs of the listener -/

namespace Listener

theorem run_snoc (as : List Arrival) (a : Arrival) : run (as ++ [a]) = (run as).receive a := by
  rw [run, run, List.foldl_append, List.foldl_cons, List.foldl_nil]

/-- **Step**: the memory follows the accepted requests. -/
theorem receive_remembers {l : Listener} (h : Remembers l.seen (l.accepted.map Arrival.requestId)) (a : Arrival) :
    Remembers (l.receive a).seen ((l.receive a).accepted.map Arrival.requestId) := by
  unfold receive
  split
  · exact h
  · next hnone =>
    have hid : a.requestId ∉ l.seen.seen := by
      intro hmem
      rw [replay, SeenRequests.checkFreshnessAndReplay, if_pos hmem] at hnone
      cases hnone
    rw [List.map_append]
    exact h.remember hid

/-- **Run**. -/
theorem run_remembers (as : List Arrival) : Remembers (run as).seen ((run as).accepted.map Arrival.requestId) := by
  induction as using List.reverseRecOn with
  | nil => exact remembers_empty
  | append_singleton as a ih =>
    rw [run_snoc]
    exact receive_remembers ih a

theorem replay_eq_none_iff {l : Listener} {a : Arrival} (h : Remembers l.seen (l.accepted.map Arrival.requestId)) :
    l.replay a = none ↔ InWindow a.now a.timestamp ∧
      ¬ (a.requestId ∈ l.accepted.map Arrival.requestId ∧
        since a.requestId (l.accepted.map Arrival.requestId) < seenRequestIdsLimit) := by
  rw [replay, SeenRequests.checkFreshnessAndReplay, InWindow, ← h.mem_seen_iff]
  split
  · next hseen => simp [hseen]
  · next hseen =>
    split
    · next hstale => simp [hseen, not_le.2 hstale]
    · next hfresh => simp [hseen, not_lt.1 hfresh]

/-- The request is fresh, it has been accepted before, its first timestamp is in the window, and 512 requests or more
have been accepted since. -/
def CrowdedOut (l : Listener) (a : Arrival) : Prop :=
  InWindow a.now a.timestamp ∧ (∃ b ∈ l.first a.requestId, InWindow a.now b.timestamp) ∧
    seenRequestIdsLimit ≤ since a.requestId (l.accepted.map Arrival.requestId)

/-- It is accepted again, while its first timestamp is in the window. -/
def Repeats (l : Listener) (a : Arrival) : Prop :=
  l.replay a = none ∧ ∃ b ∈ l.first a.requestId, InWindow a.now b.timestamp

theorem mem_of_first {l : Listener} {requestId : String} {b : Arrival} (h : b ∈ l.first requestId) :
    requestId ∈ l.accepted.map Arrival.requestId := by
  have hid : b.requestId = requestId := by simpa using List.find?_some h
  exact List.mem_map.2 ⟨b, List.mem_of_find?_eq_some h, hid⟩

/-- **A request is accepted again** when it has been crowded out. -/
theorem repeats_iff {l : Listener} {a : Arrival} (h : Remembers l.seen (l.accepted.map Arrival.requestId)) :
    l.Repeats a ↔ l.CrowdedOut a := by
  rw [Repeats, CrowdedOut, replay_eq_none_iff h]
  constructor
  · rintro ⟨⟨hfresh, hforgotten⟩, b, hb, hwindow⟩
    exact ⟨hfresh, ⟨b, hb, hwindow⟩, not_lt.1 fun hlt => hforgotten ⟨mem_of_first hb, hlt⟩⟩
  · rintro ⟨hfresh, ⟨b, hb, hwindow⟩, hmany⟩
    exact ⟨⟨hfresh, fun hknown => not_lt.2 hmany hknown.2⟩, b, hb, hwindow⟩

end Listener

/-- **No request is accepted twice within the window**, if none is crowded out of the memory, and only then. -/
theorem replay_window (as : List Arrival) :
    (∀ before a after, as = before ++ a :: after → ¬ (Listener.run before).Repeats a) ↔
      ∀ before a after, as = before ++ a :: after → ¬ (Listener.run before).CrowdedOut a := by
  refine forall_congr' fun before => forall_congr' fun a => forall_congr' fun after => imp_congr_right fun _ => ?_
  exact not_congr (Listener.repeats_iff (Listener.run_remembers before))

/-- The arrivals at one time of 513 requests. -/
def flood : List Arrival := (List.range 513).map fun i => ⟨"request-" ++ toString i, 0, 0⟩

theorem toString_injective : Function.Injective fun i : Nat => "request-" ++ toString i := by
  intro i j h
  have hchars := congrArg String.toList h
  simp only [String.toList_append, List.append_cancel_left_eq] at hchars
  have hdigits : Nat.toDigits 10 i = Nat.toDigits 10 j := by
    rw [← Nat.toList_repr, ← Nat.toList_repr]
    exact hchars
  rw [← JsText.ofDigitChars_decimal (n := i), hdigits, JsText.ofDigitChars_decimal]

theorem flood_nodup : (flood.map Arrival.requestId).Nodup := by
  rw [flood, List.map_map]
  exact List.Nodup.map toString_injective List.nodup_range

/-- Fresh requests under different ids are all accepted. -/
theorem run_of_nodup (as : List Arrival) (hnodup : (as.map Arrival.requestId).Nodup)
    (hfresh : ∀ a ∈ as, InWindow a.now a.timestamp) : (Listener.run as).accepted = as := by
  induction as using List.reverseRecOn with
  | nil => rfl
  | append_singleton as a ih =>
    rw [List.map_append, List.nodup_append] at hnodup
    have hall := ih hnodup.1 fun b hb => hfresh b (List.mem_append_left _ hb)
    have haccept : (Listener.run as).replay a = none := by
      refine (Listener.replay_eq_none_iff (Listener.run_remembers as)).2
        ⟨hfresh a (List.mem_append_right _ (List.mem_singleton_self a)), fun hknown => ?_⟩
      rw [hall] at hknown
      exact hnodup.2.2 _ hknown.1 _ (List.mem_singleton_self _) rfl
    rw [Listener.run_snoc, Listener.receive, haccept, hall]

/-- The first of them is accepted again at once. -/
theorem replay_window_flood : ¬ ∀ before a after, flood ++ [⟨"request-0", 0, 0⟩] = before ++ a :: after →
    ¬ (Listener.run before).Repeats a := by
  intro hnone
  refine hnone flood ⟨"request-0", 0, 0⟩ [] rfl ((Listener.repeats_iff (Listener.run_remembers flood)).2 ?_)
  have hwindow : InWindow 0 0 := by
    rw [InWindow, sub_self, abs_zero, requestFreshnessWindowMs]
    norm_num
  have haccepted : (Listener.run flood).accepted = flood := run_of_nodup flood flood_nodup fun a ha => by
    obtain ⟨i, -, rfl⟩ := List.mem_map.1 ha
    exact hwindow
  have hhead : flood = ⟨"request-0", 0, 0⟩ :: flood.tail := by decide +kernel
  refine ⟨hwindow, ⟨⟨"request-0", 0, 0⟩, ?_, hwindow⟩, ?_⟩
  · rw [Listener.first, haccepted, hhead]
    rfl
  · rw [haccepted]
    have hnodup := flood_nodup
    rw [hhead, List.map_cons, List.nodup_cons] at hnodup
    have hlast := mem_last_iff "request-0" seenRequestIdsLimit (flood.map Arrival.requestId)
    have hdrop : (flood.map Arrival.requestId).drop ((flood.map Arrival.requestId).length - seenRequestIdsLimit) =
        flood.tail.map Arrival.requestId := by
      have hlen : (flood.map Arrival.requestId).length - seenRequestIdsLimit = 1 := by
        rw [List.length_map, flood, List.length_map, List.length_range]
        rfl
      rw [hlen, List.drop_one, List.map_tail]
    rw [hdrop] at hlast
    have hknown : "request-0" ∈ flood.map Arrival.requestId := by
      rw [hhead]
      exact List.mem_cons_self
    exact not_lt.1 fun hlt => hnodup.1 (hlast.2 ⟨hknown, hlt⟩)

/-! ## The listener among the other steps -/

/-- A valid message. -/
def Event.arrival : Event → Option Arrival
  | .message (.ok request) now => some ⟨request.requestId, request.timestamp, now⟩
  | _ => none

/-- **Step**: nothing else touches the memory. -/
theorem Step.seen {env : SignerEnv} {e : Event} {w w' : World} (h : Step env e w w') {l : Listener}
    (hl : l.seen = w.seen) : (e.arrival.toList.foldl Listener.receive l).seen = w'.seen := by
  cases h with
  | invalid => exact hl
  | replayed hreplay =>
    simp [Event.arrival, Listener.receive, Listener.replay, World.reject, hl, hreplay]
  | pending hfresh =>
    simp [Event.arrival, Listener.receive, Listener.replay, World.reject, hl, hfresh]
  | accepted hfresh =>
    simp [Event.arrival, Listener.receive, Listener.replay, hl, hfresh]
  | reply => exact hl
  | dismiss => exact hl
  | storage => exact hl

/-- **Run**: the memory of the signer is the one of its listener. -/
theorem run_seen {env : SignerEnv} {store : LocalStore} {events : List Event} {w : World}
    (hrun : Runs.Run (Step env) (World.start store) events w) :
    w.seen = (Listener.run (events.filterMap Event.arrival)).seen := by
  induction hrun with
  | nil => rfl
  | snoc run hstep ih =>
    rw [← hstep.seen ih.symm, List.filterMap_append, Listener.run, Listener.run, List.foldl_append]
    rfl

end PhygitalWallet.Secure
