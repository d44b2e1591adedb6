import PhygitalWallet.Api.Base64
import PhygitalWallet.Lib.Requests
import Mathlib.Data.List.Nodup
import Mathlib.Logic.Function.Basic

/-!
# Single-use challenges (`shared/kv-challenge.ts`, `owner-wallet/challenge.ts`, `auth/unlock-challenge.ts`)

A challenge is put under a key of its own; what consumes it gets it and then deletes it, in two steps.

- `issue`, `consume`: the two functions, for the three kinds of challenges;
- `kvService`: both, over a key-value store whose keys may expire;
- `challenges_single_use`: one use at most, while nobody gets a challenge that another is about to delete.
-/

namespace PhygitalWallet.Api

open ByteSeq Async Runs

/-! ## The functions -/

/-- What `createKvChallenge` was called for. -/
inductive ChallengeKind
  | unlock | backup | restore
deriving DecidableEq, Repr

def ChallengeKind.kvPrefix : ChallengeKind → String
  | .unlock => "accessory:unlock:challenge:"
  | .backup => "owner-wallet:backup:challenge:"
  | .restore => "owner-wallet:restore:challenge:"

def ChallengeKind.ttlSec : ChallengeKind → Nat
  | .unlock => 60
  | .backup => 120
  | .restore => 60

/-- Domain prefix of the message that is signed. -/
def ChallengeKind.messagePrefix : ChallengeKind → Option String
  | .unlock => none
  | .backup => some "revibase.owner-wallet.put.v1"
  | .restore => none

def challengeKey (kind : ChallengeKind) (challengeId : String) : String := kind.kvPrefix ++ challengeId

inductive KvCall
  | put (key value : String) (expirationTtl : Nat)
  | get (key : String)
  | delete (key : String)
deriving DecidableEq, Repr

def KvCall.Reply : KvCall → Type
  | .put _ _ _ => Unit
  | .get _ => Option String
  | .delete _ => Unit

/-- Why the store rejects a call. -/
abbrev KvError := String

abbrev KvProg (α : Type) := Prog Unit KvError KvCall KvCall.Reply α

def kvCall (c : KvCall) : KvProg c.Reply := Prog.awaitOk c

def kvPut (key value : String) (expirationTtl : Nat) : KvProg Unit := kvCall (.put key value expirationTtl)
def kvGet (key : String) : KvProg (Option String) := kvCall (.get key)
def kvDelete (key : String) : KvProg Unit := kvCall (.delete key)

/-- What `issue` draws: `randomUUID` and 32 random bytes. -/
structure Draw where
  challengeId : String
  bytes : Bytes
deriving DecidableEq, Repr

def Draw.challenge (draw : Draw) : String := bytesToBase64Url draw.bytes

def issue (kind : ChallengeKind) (draw : Draw) : KvProg (String × String) := do
  kvPut (challengeKey kind draw.challengeId) draw.challenge kind.ttlSec
  return (draw.challengeId, draw.challenge)

/-- Consume challenge bytes (base64url). Null if missing/expired. -/
def consume (kind : ChallengeKind) (challengeId : String) : KvProg (Option String) := do
  let key := challengeKey kind challengeId
  let stored ← kvGet key
  match stored with
  | none => return none
  | some value =>
    if value = "" then return none
    else
      kvDelete key
      return some value

/-- The message that a challenge stands for; only a kind with a domain prefix has one. -/
def challengeMessage (kind : ChallengeKind) (challengeBytes : Bytes) : Except KvError Bytes :=
  match kind.messagePrefix with
  | none => .error "challengeMessage requires messagePrefix"
  | some domain => .ok (Utf8.utf8Bytes domain ++ challengeBytes)

/-! ## The service -/

inductive ChallengeRequest
  | issue (kind : ChallengeKind) (draw : Draw)
  | consume (kind : ChallengeKind) (challengeId : String)
deriving DecidableEq, Repr

/-- The id and the challenge that were issued, or what was consumed. -/
inductive ChallengeAnswer
  | issued (challengeId challenge : String)
  | consumed (stored : Option String)
deriving DecidableEq, Repr

abbrev KvStore := String → Option String

def execKv : (c : KvCall) → KvStore → Except KvError c.Reply × KvStore
  | .put key value _, s => (.ok (), Function.update s key (some value))
  | .get key, s => (.ok (s key), s)
  | .delete key, s => (.ok (), Function.update s key none)

/-- A request has a number; a key may expire at any time. -/
def kvService : Service KvStore (Nat × ChallengeRequest) KvError KvCall KvCall.Reply ChallengeAnswer where
  handler
    | (_, .issue kind draw) => do
      let (challengeId, challenge) ← issue kind draw
      return .issued challengeId challenge
    | (_, .consume kind challengeId) => do
      let stored ← consume kind challengeId
      return .consumed stored
  exec := execKv
  drift s s' := ∀ key, s' key = s key ∨ s' key = none

abbrev KvEvent := Event (Nat × ChallengeRequest) KvError KvCall KvCall.Reply ChallengeAnswer

abbrev KvServer := Server KvStore (Nat × ChallengeRequest) KvError KvCall KvCall.Reply ChallengeAnswer

abbrev KvRequest := Request (Nat × ChallengeRequest) KvError KvCall KvCall.Reply ChallengeAnswer

/-- The key and the value that a request issues. -/
def issuedBy : KvEvent → Option (String × String)
  | .arrive (_, .issue kind draw) _ => some (challengeKey kind draw.challengeId, draw.challenge)
  | _ => none

/-- The key and the value that a request has consumed. -/
def consumedBy : KvEvent → Option (String × String)
  | .reply (_, .consume kind challengeId) _ _ (some (.ok (.consumed (some value)))) =>
    some (challengeKey kind challengeId, value)
  | _ => none

/-- The requests that wait at such a call. -/
def waitingAt (p : KvCall → Bool) (pool : List KvRequest) : Nat := pool.countP fun request => p request.waiting.site

def isDelete (key : String) : KvCall → Bool
  | .delete key' => decide (key' = key)
  | _ => false

/-- A get that finds a challenge does so while nobody is about to delete it. -/
def alone : KvEvent → KvServer → Bool
  | .reply _ (.get key) (.ok (some _)) _, server => decide (waitingAt (isDelete key) server.pool = 0)
  | _, _ => true

/-! ## The functions, call by call -/

def afterPut (draw : Draw) : Except KvError Unit → KvProg ChallengeAnswer
  | .ok _ => .ret (.issued draw.challengeId draw.challenge)
  | .error e => .throw e

def afterDelete (value : String) : Except KvError Unit → KvProg ChallengeAnswer
  | .ok _ => .ret (.consumed (some value))
  | .error e => .throw e

def afterGet (key : String) : Except KvError (Option String) → KvProg ChallengeAnswer
  | .ok none => .ret (.consumed none)
  | .ok (some value) => if value = "" then .ret (.consumed none) else .await (.delete key) (afterDelete value)
  | .error e => .throw e

theorem afterGet_some (key : String) {value : String} (h : value ≠ "") :
    afterGet key (.ok (some value)) = .await (.delete key) (afterDelete value) := if_neg h

theorem handler_issue (n : Nat) (kind : ChallengeKind) (draw : Draw) : kvService.handler (n, .issue kind draw) =
    .await (.put (challengeKey kind draw.challengeId) draw.challenge kind.ttlSec) (afterPut draw) := by
  show Prog.await _ _ = _
  congr 1
  funext r
  cases r <;> rfl

theorem handler_consume (n : Nat) (kind : ChallengeKind) (challengeId : String) :
    kvService.handler (n, .consume kind challengeId) =
      .await (.get (challengeKey kind challengeId)) (afterGet (challengeKey kind challengeId)) := by
  show Prog.await _ _ = _
  congr 1
  funext r
  rcases r with e | stored
  · rfl
  · cases stored with
    | none => rfl
    | some value =>
      by_cases hvalue : value = ""
      · subst hvalue
        rfl
      · show ((if value = "" then (pure none : KvProg (Option String)) else do
            kvDelete (challengeKey kind challengeId)
            return some value) >>= fun stored => (pure (.consumed stored) : KvProg ChallengeAnswer)) = _
        rw [if_neg hvalue]
        refine Eq.trans ?_ (afterGet_some _ hvalue).symm
        show Prog.await _ _ = _
        congr 1
        funext r
        cases r <;> rfl

def putRequest (n : Nat) (kind : ChallengeKind) (draw : Draw) : KvRequest :=
  ⟨(n, .issue kind draw), ⟨.put (challengeKey kind draw.challengeId) draw.challenge kind.ttlSec, afterPut draw⟩⟩

def getRequest (n : Nat) (kind : ChallengeKind) (challengeId : String) : KvRequest :=
  ⟨(n, .consume kind challengeId), ⟨.get (challengeKey kind challengeId), afterGet (challengeKey kind challengeId)⟩⟩

def deleteRequest (n : Nat) (kind : ChallengeKind) (challengeId value : String) : KvRequest :=
  ⟨(n, .consume kind challengeId), ⟨.delete (challengeKey kind challengeId), afterDelete value⟩⟩

/-- A request that waits: where it waits, and how it goes on with what was issued. -/
inductive Formed (issued : List (String × String)) : KvRequest → Prop
  | put (n : Nat) (kind : ChallengeKind) (draw : Draw)
      (h : (challengeKey kind draw.challengeId, draw.challenge) ∈ issued) : Formed issued (putRequest n kind draw)
  | get (n : Nat) (kind : ChallengeKind) (challengeId : String) : Formed issued (getRequest n kind challengeId)
  | delete (n : Nat) (kind : ChallengeKind) (challengeId value : String)
      (h : (challengeKey kind challengeId, value) ∈ issued) : Formed issued (deleteRequest n kind challengeId value)

theorem Formed.mono {issued issued' : List (String × String)} (h : issued ⊆ issued') {request : KvRequest}
    (hformed : Formed issued request) : Formed issued' request := by
  cases hformed with
  | put n kind draw hissued => exact .put n kind draw (h hissued)
  | get n kind challengeId => exact .get n kind challengeId
  | delete n kind challengeId value hissued => exact .delete n kind challengeId value (h hissued)

section Takes

variable {s s' : KvStore} {key value : String} {ttl : Nat}

theorem takes_put {r : Except KvError Unit} (h : kvService.Takes (.put key value ttl) s r s') :
    s' = s ∨ s' = Function.update s key (some value) := by
  rcases h with h | ⟨e, -, hsame | hdone⟩
  · exact Or.inr (congrArg Prod.snd h)
  · exact Or.inl hsame
  · exact Or.inr hdone

theorem takes_get {r : Except KvError (Option String)} (h : kvService.Takes (.get key) s r s') :
    s' = s ∧ ∀ stored, r = .ok stored → stored = s key := by
  rcases h with h | ⟨e, rfl, hsame⟩
  · have hreply : r = .ok (s key) := congrArg Prod.fst h
    refine ⟨congrArg Prod.snd h, fun stored hstored => ?_⟩
    rw [hreply] at hstored
    exact (Except.ok.inj hstored).symm
  · exact ⟨hsame.elim id id, fun stored hstored => nomatch hstored⟩

theorem takes_delete {r : Except KvError Unit} (h : kvService.Takes (.delete key) s r s') :
    (s' = s ∧ ∃ e, r = .error e) ∨ s' = Function.update s key none := by
  rcases h with h | ⟨e, he, hsame | hdone⟩
  · exact Or.inr (congrArg Prod.snd h)
  · exact Or.inl ⟨hsame, e, he⟩
  · exact Or.inr hdone

end Takes

/-! ## What a step does -/

/-- The steps of the server, over what was issued. -/
inductive KvStep (issued : List (String × String)) : KvEvent → KvServer → KvServer → Prop
  | issue (n : Nat) (kind : ChallengeKind) (draw : Draw) {s : KvStore} {pool : List KvRequest} :
      KvStep issued (.arrive (n, .issue kind draw) none) ⟨s, pool⟩ ⟨s, pool ++ [putRequest n kind draw]⟩
  | consume (n : Nat) (kind : ChallengeKind) (challengeId : String) {s : KvStore} {pool : List KvRequest} :
      KvStep issued (.arrive (n, .consume kind challengeId) none) ⟨s, pool⟩ ⟨s, pool ++ [getRequest n kind challengeId]⟩
  | put (n : Nat) (kind : ChallengeKind) (draw : Draw) (r : Except KvError Unit)
      (out : Option (Except KvError ChallengeAnswer)) {s s' : KvStore} (before after : List KvRequest)
      (hissued : (challengeKey kind draw.challengeId, draw.challenge) ∈ issued)
      (h : s' = s ∨ s' = Function.update s (challengeKey kind draw.challengeId) (some draw.challenge)) :
      KvStep issued (.reply (n, .issue kind draw) (.put (challengeKey kind draw.challengeId) draw.challenge kind.ttlSec) r out)
        ⟨s, before ++ putRequest n kind draw :: after⟩ ⟨s', before ++ [] ++ after⟩
  | miss (n : Nat) (kind : ChallengeKind) (challengeId : String) (r : Except KvError (Option String))
      (out : Except KvError ChallengeAnswer) {s : KvStore} (before after : List KvRequest)
      (h : ∀ value, out ≠ .ok (.consumed (some value))) :
      KvStep issued (.reply (n, .consume kind challengeId) (.get (challengeKey kind challengeId)) r (some out))
        ⟨s, before ++ getRequest n kind challengeId :: after⟩ ⟨s, before ++ [] ++ after⟩
  | hit (n : Nat) (kind : ChallengeKind) (challengeId value : String) {s : KvStore} (before after : List KvRequest)
      (h : s (challengeKey kind challengeId) = some value) :
      KvStep issued (.reply (n, .consume kind challengeId) (.get (challengeKey kind challengeId)) (.ok (some value)) none)
        ⟨s, before ++ getRequest n kind challengeId :: after⟩
        ⟨s, before ++ [deleteRequest n kind challengeId value] ++ after⟩
  | delete (n : Nat) (kind : ChallengeKind) (challengeId value : String) {s : KvStore} (before after : List KvRequest)
      (hissued : (challengeKey kind challengeId, value) ∈ issued) :
      KvStep issued (.reply (n, .consume kind challengeId) (.delete (challengeKey kind challengeId)) (.ok ())
          (some (.ok (.consumed (some value)))))
        ⟨s, before ++ deleteRequest n kind challengeId value :: after⟩
        ⟨Function.update s (challengeKey kind challengeId) none, before ++ [] ++ after⟩
  | fail (n : Nat) (kind : ChallengeKind) (challengeId value : String) (e : KvError) {s s' : KvStore}
      (before after : List KvRequest) (h : s' = s ∨ s' = Function.update s (challengeKey kind challengeId) none) :
      KvStep issued (.reply (n, .consume kind challengeId) (.delete (challengeKey kind challengeId)) (.error e)
          (some (.error e)))
        ⟨s, before ++ deleteRequest n kind challengeId value :: after⟩ ⟨s', before ++ [] ++ after⟩
  | drift {s s' : KvStore} {pool : List KvRequest} (h : ∀ key, s' key = s key ∨ s' key = none) :
      KvStep issued .drift ⟨s, pool⟩ ⟨s', pool⟩

theorem kvStep_of_step {issued : List (String × String)} {event : KvEvent} {server server' : KvServer}
    (hpool : ∀ request ∈ server.pool, Formed issued request) (h : kvService.Step event server server') :
    KvStep issued event server server' := by
  cases h with
  | arrive tag =>
    obtain ⟨n, request⟩ := tag
    cases request with
    | issue kind draw =>
      rw [handler_issue]
      exact .issue n kind draw
    | consume kind challengeId =>
      rw [handler_consume]
      exact .consume n kind challengeId
  | @reply s s' before after request r htakes =>
    have hformed := hpool request (List.mem_append_right _ List.mem_cons_self)
    cases hformed with
    | put n kind draw hissued =>
      cases r with
      | ok _ => exact KvStep.put n kind draw (.ok ()) _ before after hissued (takes_put htakes)
      | error e => exact KvStep.put n kind draw (.error e) _ before after hissued (takes_put htakes)
    | get n kind challengeId =>
      obtain ⟨rfl, hstored⟩ := takes_get htakes
      rcases r with e | stored
      · exact KvStep.miss n kind challengeId (.error e) (.error e) before after fun _ h => nomatch h
      · rcases stored with _ | value
        · exact KvStep.miss n kind challengeId (.ok none) (.ok (.consumed none)) before after fun _ h => nomatch h
        · by_cases hvalue : value = ""
          · subst hvalue
            exact KvStep.miss n kind challengeId (.ok (some "")) (.ok (.consumed none)) before after
              fun _ h => nomatch h
          · have hgo : goOn (n, ChallengeRequest.consume kind challengeId) (afterGet (challengeKey kind challengeId)
                (.ok (some value))) = ([deleteRequest n kind challengeId value], none) := by
              rw [afterGet_some _ hvalue]
              rfl
            have hhit : KvStep issued _ _ _ := .hit n kind challengeId value before after (hstored _ rfl).symm
            have hsame : ∀ next, next = goOn (n, ChallengeRequest.consume kind challengeId)
                (afterGet (challengeKey kind challengeId) (.ok (some value))) →
                KvStep issued (.reply (n, .consume kind challengeId) (.get (challengeKey kind challengeId)) (.ok (some value)) next.2)
                  ⟨s', before ++ getRequest n kind challengeId :: after⟩ ⟨s', before ++ next.1 ++ after⟩ := by
              rintro next rfl
              rw [hgo]
              exact hhit
            exact hsame _ rfl
    | delete n kind challengeId value hissued =>
      cases r with
      | ok _ =>
        rcases takes_delete htakes with ⟨-, e, he⟩ | rfl
        · cases he
        · exact KvStep.delete n kind challengeId value before after hissued
      | error e =>
        exact KvStep.fail n kind challengeId value e before after ((takes_delete htakes).imp_left fun h => h.1)
  | drift h => exact .drift h

/-! ## What is consumed was issued -/

/-- The store and the requests hold what was issued. -/
structure Holding (events : List KvEvent) (server : KvServer) : Prop where
  store : ∀ key value, server.store key = some value → (key, value) ∈ events.filterMap issuedBy
  pool : ∀ request ∈ server.pool, Formed (events.filterMap issuedBy) request
  consumed : ∀ pair ∈ events.filterMap consumedBy, pair ∈ events.filterMap issuedBy

/-- What is found after an update. -/
theorem update_eq_some {s : KvStore} {key key' value : String} {stored : Option String}
    (h : Function.update s key stored key' = some value) : (key' = key ∧ stored = some value) ∨ s key' = some value := by
  by_cases hkey : key' = key
  · subst hkey
    rw [Function.update_self] at h
    exact Or.inl ⟨rfl, h⟩
  · rw [Function.update_of_ne hkey] at h
    exact Or.inr h

theorem holding_start : Holding [] ⟨fun _ => none, []⟩ := by
  constructor <;> simp

theorem filterMap_snoc {α β : Type} (f : α → Option β) (l : List α) (a : α) :
    (l ++ [a]).filterMap f = l.filterMap f ++ (f a).toList := by
  cases h : f a <;> simp [h]

theorem consumedBy_miss {n : Nat} {kind : ChallengeKind} {challengeId key : String}
    {r : Except KvError (Option String)} {out : Except KvError ChallengeAnswer}
    (h : ∀ value, out ≠ .ok (.consumed (some value))) :
    consumedBy (.reply (n, .consume kind challengeId) (.get key) r (some out)) = none := by
  unfold consumedBy
  split
  · next heq =>
    cases heq
    exact absurd rfl (h _)
  · rfl

section Parts

variable {issued : List (String × String)} {event : KvEvent} {server server' : KvServer}

/-- What is stored was stored, or is put by a request that issued it. -/
theorem KvStep.store (h : KvStep issued event server server') :
    ∀ key value, server'.store key = some value → server.store key = some value ∨ (key, value) ∈ issued := by
  intro key value hkey
  cases h with
  | issue | consume | miss | hit => exact Or.inl hkey
  | put n kind draw r out before after hissued hwrite =>
    rcases hwrite with rfl | rfl
    · exact Or.inl hkey
    · rcases update_eq_some hkey with ⟨rfl, hvalue⟩ | hkey
      · cases hvalue
        exact Or.inr hissued
      · exact Or.inl hkey
  | delete n kind challengeId value before after hissued =>
    rcases update_eq_some hkey with ⟨-, hvalue⟩ | hkey
    · cases hvalue
    · exact Or.inl hkey
  | fail n kind challengeId value e before after hwrite =>
    rcases hwrite with rfl | rfl
    · exact Or.inl hkey
    · rcases update_eq_some hkey with ⟨-, hvalue⟩ | hkey
      · cases hvalue
      · exact Or.inl hkey
  | drift hdrift =>
    rcases hdrift key with hsame | hnone
    · exact Or.inl (hsame.symm.trans hkey)
    · exact nomatch hnone.symm.trans hkey

/-- A request that waits was there, or waits with what is issued now or was stored. -/
theorem KvStep.pool (h : KvStep issued event server server')
    (hstore : ∀ key value, server.store key = some value → (key, value) ∈ issued) :
    ∀ request ∈ server'.pool, request ∈ server.pool ∨ Formed (issued ++ (issuedBy event).toList) request := by
  intro request hrequest
  cases h with
  | issue n kind draw =>
    refine (List.mem_append.1 hrequest).imp_right fun hnew => ?_
    rw [List.mem_singleton.1 hnew]
    exact .put n kind draw (by simp [issuedBy])
  | consume n kind challengeId =>
    refine (List.mem_append.1 hrequest).imp_right fun hnew => ?_
    rw [List.mem_singleton.1 hnew]
    exact .get n kind challengeId
  | hit n kind challengeId value before after hkey =>
    refine (mem_replace _ hrequest).imp_right fun hnew => ?_
    rw [List.mem_singleton.1 hnew]
    exact .delete n kind challengeId value (List.mem_append_left _ (hstore _ _ hkey))
  | put | miss | delete | fail => exact Or.inl ((mem_replace _ hrequest).resolve_right fun h => nomatch h)
  | drift => exact Or.inl hrequest

/-- What is consumed was issued. -/
theorem KvStep.consumed (h : KvStep issued event server server') : ∀ pair ∈ consumedBy event, pair ∈ issued := by
  intro pair hpair
  cases h with
  | delete n kind challengeId value before after hissued =>
    cases hpair
    exact hissued
  | miss n kind challengeId r out before after hmiss =>
    rw [consumedBy_miss hmiss] at hpair
    cases hpair
  | issue | consume | put | hit | fail | drift => cases hpair

end Parts

/-- One step. -/
theorem Holding.step {events : List KvEvent} {event : KvEvent} {server server' : KvServer} (h : Holding events server)
    (hstep : KvStep (events.filterMap issuedBy) event server server') : Holding (events ++ [event]) server' := by
  have hsub : events.filterMap issuedBy ⊆ (events ++ [event]).filterMap issuedBy := by
    rw [filterMap_snoc]
    exact List.subset_append_left _ _
  refine ⟨fun key value hkey => hsub ?_, fun request hrequest => ?_, fun pair hpair => hsub ?_⟩
  · exact (hstep.store key value hkey).elim (h.store key value) id
  · rcases hstep.pool h.store request hrequest with hold | hnew
    · exact (h.pool request hold).mono hsub
    · rw [filterMap_snoc]
      exact hnew
  · rw [filterMap_snoc] at hpair
    rcases List.mem_append.1 hpair with hold | hnew
    · exact h.consumed pair hold
    · exact hstep.consumed pair (Option.mem_toList.1 hnew)

/-! ## The life of one key -/

/-- How often a key was issued and used, how many requests are about to put it and to delete it, and whether it is there. -/
structure Tally where
  issued : Nat
  puts : Nat
  deleting : Nat
  used : Nat
  present : Bool
deriving DecidableEq, Repr

namespace Tally

/-- The steps that matter to a key; what is there may expire. -/
inductive Step : Tally → Tally → Prop
  | issue (t : Tally) : Step t { t with issued := t.issued + 1, puts := t.puts + 1 }
  | put {t : Tally} (h : 0 < t.puts) {present : Bool} (hpresent : present = t.present ∨ present = true) :
      Step t { t with puts := t.puts - 1, present }
  | take {t : Tally} (hpresent : t.present = true) (halone : t.deleting = 0) :
      Step t { t with deleting := t.deleting + 1 }
  | use {t : Tally} (h : 0 < t.deleting) :
      Step t { t with deleting := t.deleting - 1, used := t.used + 1, present := false }
  | drop {t : Tally} (h : 0 < t.deleting) {present : Bool} (hpresent : present = t.present ∨ present = false) :
      Step t { t with deleting := t.deleting - 1, present }
  | idle (t : Tally) {present : Bool} (hpresent : present = t.present ∨ present = false) : Step t { t with present }

/-- A key that is there, or taken, or used, was put; only one takes it, and then it is gone. -/
structure Once (t : Tally) : Prop where
  puts : t.puts ≤ t.issued
  spent : (t.present = true ∨ 0 < t.deleting ∨ 0 < t.used) → t.puts + 1 ≤ t.issued
  once : t.used + t.deleting ≤ 1
  gone : 0 < t.used → t.present = false

/-- A key that is issued once is used once at most. -/
theorem Once.step {t t' : Tally} (h : t.Once) (hstep : Step t t') (hissued : t'.issued ≤ 1) : t'.Once := by
  obtain ⟨hputs, hspent, honce, hgone⟩ := h
  cases hstep with
  | issue =>
    refine ⟨by simpa using hputs, fun hany => ?_, honce, hgone⟩
    have hold := hspent hany
    simp only at hissued ⊢
    omega
  | put hpos hpresent =>
    have hnone : ¬ (t.present = true ∨ 0 < t.deleting ∨ 0 < t.used) := by
      intro hany
      have hold := hspent hany
      simp only at hissued
      omega
    rw [not_or, not_or] at hnone
    refine ⟨?_, fun _ => ?_, honce, fun hused => absurd hused hnone.2.2⟩
    · simp only
      omega
    · simp only at hissued ⊢
      omega
  | take hpresent halone =>
    have hunused : t.used = 0 := by
      by_contra hused
      have hfalse := hgone (Nat.pos_of_ne_zero hused)
      rw [hpresent] at hfalse
      cases hfalse
    refine ⟨hputs, fun _ => hspent (Or.inl hpresent), ?_, hgone⟩
    simp only
    omega
  | use hpos =>
    refine ⟨hputs, fun _ => hspent (Or.inr (Or.inl hpos)), ?_, fun _ => rfl⟩
    simp only
    omega
  | drop hpos hpresent =>
    refine ⟨hputs, fun _ => hspent (Or.inr (Or.inl hpos)), ?_, fun hused => ?_⟩
    · simp only
      omega
    · rcases hpresent with rfl | rfl
      · exact hgone hused
      · rfl
  | idle hpresent =>
    rcases hpresent with rfl | rfl
    · exact ⟨hputs, hspent, honce, hgone⟩
    · refine ⟨hputs, fun hany => hspent ?_, honce, fun _ => rfl⟩
      rcases hany with hany | hany
      · cases hany
      · exact Or.inr hany

end Tally

/-- How often a key is among the pairs. -/
def timesOf (key : String) (pairs : List (String × String)) : Nat := (pairs.map Prod.fst).count key

def isPut (key : String) : KvCall → Bool
  | .put key' _ _ => decide (key' = key)
  | _ => false

/-- The tally of a key. -/
def tallyOf (key : String) (events : List KvEvent) (server : KvServer) : Tally where
  issued := timesOf key (events.filterMap issuedBy)
  puts := waitingAt (isPut key) server.pool
  deleting := waitingAt (isDelete key) server.pool
  used := timesOf key (events.filterMap consumedBy)
  present := (server.store key).isSome

section Counts

variable (key : String)

@[simp] theorem timesOf_append (pairs pairs' : List (String × String)) :
    timesOf key (pairs ++ pairs') = timesOf key pairs + timesOf key pairs' := by
  simp [timesOf]

@[simp] theorem timesOf_nil : timesOf key [] = 0 := rfl

@[simp] theorem timesOf_singleton (key' value : String) : timesOf key [(key', value)] = if key' = key then 1 else 0 := by
  simp [timesOf, List.count_singleton]

variable (p : KvCall → Bool)

@[simp] theorem waitingAt_append (pool pool' : List KvRequest) :
    waitingAt p (pool ++ pool') = waitingAt p pool + waitingAt p pool' := List.countP_append

@[simp] theorem waitingAt_nil : waitingAt p [] = 0 := rfl

@[simp] theorem waitingAt_cons (request : KvRequest) (pool : List KvRequest) :
    waitingAt p (request :: pool) = waitingAt p pool + if p request.waiting.site = true then 1 else 0 := List.countP_cons

end Counts

theorem tallyOf_snoc {key : String} {events : List KvEvent} {event : KvEvent} {server : KvServer}
    {i c : Option (String × String)} (hissued : issuedBy event = i) (hconsumed : consumedBy event = c) :
    tallyOf key (events ++ [event]) server =
      { issued := timesOf key (events.filterMap issuedBy) + timesOf key i.toList
        puts := waitingAt (isPut key) server.pool
        deleting := waitingAt (isDelete key) server.pool
        used := timesOf key (events.filterMap consumedBy) + timesOf key c.toList
        present := (server.store key).isSome } := by
  rw [tallyOf, filterMap_snoc, filterMap_snoc, timesOf_append, timesOf_append, hissued, hconsumed]

theorem isSome_update (s : KvStore) (key key' : String) (stored : Option String) :
    (Function.update s key stored key').isSome = if key = key' then stored.isSome else (s key').isSome := by
  by_cases h : key = key'
  · subst h
    simp
  · rw [Function.update_of_ne (Ne.symm h), if_neg h]

section TallyStep

variable {events : List KvEvent} {s s' : KvStore} {pool before after : List KvRequest} {n : Nat} {kind : ChallengeKind}
  {draw : Draw} {challengeId value : String} (key : String)

theorem tally_issue : Tally.Step (tallyOf key events ⟨s, pool⟩)
    (tallyOf key (events ++ [.arrive (n, .issue kind draw) none]) ⟨s, pool ++ [putRequest n kind draw]⟩) := by
  rw [tallyOf_snoc (i := some (challengeKey kind draw.challengeId, draw.challenge)) (c := none) rfl rfl]
  by_cases hkey : challengeKey kind draw.challengeId = key
  · convert Tally.Step.issue (tallyOf key events _) using 1
    simp [tallyOf, putRequest, isPut, isDelete, hkey]
  · convert Tally.Step.idle (tallyOf key events _) (Or.inl rfl) using 1
    simp [tallyOf, putRequest, isPut, isDelete, hkey]

theorem tally_put {r : Except KvError Unit} {out : Option (Except KvError ChallengeAnswer)}
    (hwrite : s' = s ∨ s' = Function.update s (challengeKey kind draw.challengeId) (some draw.challenge)) :
    Tally.Step (tallyOf key events ⟨s, before ++ putRequest n kind draw :: after⟩)
      (tallyOf key (events ++ [.reply (n, .issue kind draw)
        (.put (challengeKey kind draw.challengeId) draw.challenge kind.ttlSec) r out]) ⟨s', before ++ [] ++ after⟩) := by
  rw [tallyOf_snoc (i := none) (c := none) rfl rfl]
  by_cases hkey : challengeKey kind draw.challengeId = key
  · have hpresent : (s' key).isSome = (s key).isSome ∨ (s' key).isSome = true := by
      rcases hwrite with rfl | rfl
      · exact Or.inl rfl
      · exact Or.inr (by simp [hkey])
    convert Tally.Step.put (t := tallyOf key events ⟨s, before ++ putRequest n kind draw :: after⟩) ?_ hpresent using 1
    · simp [tallyOf, putRequest, isPut, isDelete, hkey]
    · simp [tallyOf, putRequest, isPut, hkey]
  · have hpresent : (s' key).isSome = (s key).isSome := by
      rcases hwrite with rfl | rfl
      · rfl
      · rw [isSome_update, if_neg hkey]
    convert Tally.Step.idle (tallyOf key events _) (Or.inl rfl) using 1
    simp [tallyOf, putRequest, isPut, isDelete, hkey, hpresent]

/-- Nobody else is about to delete the challenge that is found. -/
theorem tally_hit (hstored : s (challengeKey kind challengeId) = some value)
    (halone : waitingAt (isDelete (challengeKey kind challengeId)) (before ++ getRequest n kind challengeId :: after) = 0) :
    Tally.Step (tallyOf key events ⟨s, before ++ getRequest n kind challengeId :: after⟩)
      (tallyOf key (events ++ [.reply (n, .consume kind challengeId) (.get (challengeKey kind challengeId))
        (.ok (some value)) none]) ⟨s, before ++ [deleteRequest n kind challengeId value] ++ after⟩) := by
  rw [tallyOf_snoc (i := none) (c := none) rfl rfl]
  by_cases hkey : challengeKey kind challengeId = key
  · subst hkey
    convert Tally.Step.take (t := tallyOf _ events ⟨s, before ++ getRequest n kind challengeId :: after⟩) ?_ halone using 1
    · simp [tallyOf, getRequest, deleteRequest, isPut, isDelete]
      omega
    · simp [tallyOf, hstored]
  · convert Tally.Step.idle (tallyOf key events _) (Or.inl rfl) using 1
    simp [tallyOf, getRequest, deleteRequest, isPut, isDelete, hkey]

theorem tally_delete : Tally.Step (tallyOf key events ⟨s, before ++ deleteRequest n kind challengeId value :: after⟩)
    (tallyOf key (events ++ [.reply (n, .consume kind challengeId) (.delete (challengeKey kind challengeId)) (.ok ())
      (some (.ok (.consumed (some value))))])
      ⟨Function.update s (challengeKey kind challengeId) none, before ++ [] ++ after⟩) := by
  rw [tallyOf_snoc (i := none) (c := some (challengeKey kind challengeId, value)) rfl rfl]
  by_cases hkey : challengeKey kind challengeId = key
  · convert Tally.Step.use (t := tallyOf key events _) ?_ using 1
    · simp [tallyOf, deleteRequest, isPut, isDelete, hkey]
    · simp [tallyOf, deleteRequest, isDelete, hkey]
  · convert Tally.Step.idle (tallyOf key events _) (Or.inl rfl) using 1
    simp [tallyOf, deleteRequest, isPut, isDelete, isSome_update, hkey]

/-- A delete that is lost consumes nothing, and the challenge is gone or not. -/
theorem tally_fail {e : KvError} (hwrite : s' = s ∨ s' = Function.update s (challengeKey kind challengeId) none) :
    Tally.Step (tallyOf key events ⟨s, before ++ deleteRequest n kind challengeId value :: after⟩)
      (tallyOf key (events ++ [.reply (n, .consume kind challengeId) (.delete (challengeKey kind challengeId)) (.error e)
        (some (.error e))]) ⟨s', before ++ [] ++ after⟩) := by
  rw [tallyOf_snoc (i := none) (c := none) rfl rfl]
  by_cases hkey : challengeKey kind challengeId = key
  · have hpresent : (s' key).isSome = (s key).isSome ∨ (s' key).isSome = false := by
      rcases hwrite with rfl | rfl
      · exact Or.inl rfl
      · exact Or.inr (by simp [hkey])
    convert Tally.Step.drop (t := tallyOf key events ⟨s, before ++ deleteRequest n kind challengeId value :: after⟩) ?_
      hpresent using 1
    · simp [tallyOf, deleteRequest, isPut, isDelete, hkey]
    · simp [tallyOf, deleteRequest, isDelete, hkey]
  · have hpresent : (s' key).isSome = (s key).isSome := by
      rcases hwrite with rfl | rfl
      · rfl
      · rw [isSome_update, if_neg hkey]
    convert Tally.Step.idle (tallyOf key events _) (Or.inl rfl) using 1
    simp [tallyOf, deleteRequest, isPut, isDelete, hkey, hpresent]

theorem tally_drift (hdrift : s' key = s key ∨ s' key = none) :
    Tally.Step (tallyOf key events ⟨s, pool⟩) (tallyOf key (events ++ [.drift]) ⟨s', pool⟩) := by
  rw [tallyOf_snoc (i := none) (c := none) rfl rfl]
  have hpresent : (s' key).isSome = (s key).isSome ∨ (s' key).isSome = false := by
    rcases hdrift with hsame | hnone
    · exact Or.inl (by rw [hsame])
    · exact Or.inr (by rw [hnone]; rfl)
  exact Tally.Step.idle (tallyOf key events ⟨s, pool⟩) hpresent

/-- A step of the server is a step of the key's tally. -/
theorem tally_step {issued : List (String × String)} {event : KvEvent} {server server' : KvServer}
    (hstep : KvStep issued event server server') (halone : alone event server = true) :
    Tally.Step (tallyOf key events server) (tallyOf key (events ++ [event]) server') := by
  cases hstep with
  | issue n kind draw => exact tally_issue key
  | consume n kind challengeId =>
    rw [tallyOf_snoc (i := none) (c := none) rfl rfl]
    convert Tally.Step.idle (tallyOf key events _) (Or.inl rfl) using 1
    simp [tallyOf, getRequest, isPut, isDelete]
  | put n kind draw r out before after hissued hwrite => exact tally_put key hwrite
  | miss n kind challengeId r out before after hmiss =>
    rw [tallyOf_snoc (i := none) (c := none) rfl (consumedBy_miss hmiss)]
    convert Tally.Step.idle (tallyOf key events _) (Or.inl rfl) using 1
    simp [tallyOf, getRequest, isPut, isDelete]
  | hit n kind challengeId value before after hstored => exact tally_hit key hstored (of_decide_eq_true halone)
  | delete n kind challengeId value before after hissued => exact tally_delete key
  | fail n kind challengeId value e before after hwrite => exact tally_fail key hwrite
  | drift hdrift => exact tally_drift key (hdrift key)

end TallyStep

/-! ## Runs -/

/-- **Single use.** In every run in which nobody gets a challenge that another is about to delete, and no id is drawn twice,
every challenge is consumed once at most; what is consumed is what was issued under the id. -/
theorem challenges_single_use {events : List KvEvent} {server : KvServer}
    (hrun : Run (fun event server server' => kvService.Step event server server' ∧ alone event server = true)
      ⟨fun _ => none, []⟩ events server) (hfresh : ((events.filterMap issuedBy).map Prod.fst).Nodup) :
    ((events.filterMap consumedBy).map Prod.fst).Nodup ∧
      ∀ pair ∈ events.filterMap consumedBy, pair ∈ events.filterMap issuedBy := by
  have hinv : Holding events server ∧
      (((events.filterMap issuedBy).map Prod.fst).Nodup → ∀ key, (tallyOf key events server).Once) := by
    refine hrun.tracked (I := fun events server => Holding events server ∧
      (((events.filterMap issuedBy).map Prod.fst).Nodup → ∀ key, (tallyOf key events server).Once)) ?_ ?_
    · refine ⟨holding_start, fun _ key => ?_⟩
      exact ⟨Nat.le_refl 0, by simp [tallyOf], Nat.zero_le 1, fun h => absurd h (Nat.lt_irrefl 0)⟩
    · rintro events event server server' - ⟨hholding, honce⟩ ⟨hstep, halone⟩
      have hkv := kvStep_of_step hholding.pool hstep
      refine ⟨hholding.step hkv, fun hfresh key => ?_⟩
      have hcount := List.nodup_iff_count_le_one.1 hfresh key
      rw [filterMap_snoc, List.map_append, List.nodup_append] at hfresh
      exact (honce hfresh.1 key).step (tally_step key hkv halone) hcount
  refine ⟨List.nodup_iff_count_le_one.2 fun key => ?_, hinv.1.consumed⟩
  have honce := (hinv.2 hfresh key).once
  simp only [tallyOf, timesOf] at honce
  omega

/-! ## Two at once -/

/-- An id, and 32 bytes. -/
def exampleDraw : Draw := ⟨"9b1deb4d-3b7d-4bad-9bdd-2b0d7b3dcb6d", List.replicate 32 7⟩

def consumeMove (n : Nat) : Service.Move (Nat × ChallengeRequest) := .arrive (n, .consume .unlock exampleDraw.challengeId)

def exampleConsumed : String × String := (challengeKey .unlock exampleDraw.challengeId, exampleDraw.challenge)

/-- The numbers of the requests that found no challenge. -/
def refusedBy : KvEvent → Option Nat
  | .reply (n, .consume _ _) _ _ (some (.ok (.consumed none))) => some n
  | _ => none

/-- A challenge is issued; of two requests that wait for it one consumes it, and the other finds nothing. -/
theorem challenges_single_use_issued : ∃ events : List KvEvent, events.filterMap consumedBy = [exampleConsumed] ∧
    events.filterMap refusedBy = [2] ∧ ((events.filterMap consumedBy).map Prod.fst).Nodup ∧
      ∀ pair ∈ events.filterMap consumedBy, pair ∈ events.filterMap issuedBy := by
  have hrun : (kvService.execAll alone ⟨fun _ => none, []⟩
      [.arrive (0, .issue .unlock exampleDraw), .serve 0, consumeMove 1, consumeMove 2, .serve 0, .serve 0, .serve 0]).any
        (fun (events, _) => decide (events.filterMap consumedBy = [exampleConsumed] ∧ events.filterMap refusedBy = [2] ∧
          ((events.filterMap issuedBy).map Prod.fst).Nodup)) = true := by decide +kernel
  obtain ⟨⟨events, server⟩, hexec, hconsumed⟩ := (Option.any_eq_true _ _).1 hrun
  obtain ⟨hconsumed, hrefused, hfresh⟩ := of_decide_eq_true hconsumed
  exact ⟨events, hconsumed, hrefused, challenges_single_use (Service.run_of_execAll .nil hexec) hfresh⟩

/-- Two requests get the challenge before either deletes it, and both consume it. -/
theorem challenge_consumed_twice : ∃ events server, kvService.Runs (fun _ => none) events server ∧
    ((events.filterMap issuedBy).map Prod.fst).Nodup ∧ events.filterMap consumedBy = [exampleConsumed, exampleConsumed] := by
  have hrun : (kvService.execAll (fun _ _ => true) ⟨fun _ => none, []⟩
      [.arrive (0, .issue .unlock exampleDraw), .serve 0, consumeMove 1, consumeMove 2, .serve 0, .serve 1, .serve 0,
        .serve 0]).any (fun (events, _) => decide (((events.filterMap issuedBy).map Prod.fst).Nodup ∧
          events.filterMap consumedBy = [exampleConsumed, exampleConsumed])) = true := by decide +kernel
  obtain ⟨⟨events, server⟩, hexec, htwice⟩ := (Option.any_eq_true _ _).1 hrun
  obtain ⟨hfresh, htwice⟩ := of_decide_eq_true htwice
  exact ⟨events, server, (Service.run_of_execAll .nil hexec).mono fun _ _ _ h => h.1, hfresh, htwice⟩

end PhygitalWallet.Api
