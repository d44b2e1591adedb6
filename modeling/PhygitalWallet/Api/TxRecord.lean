import PhygitalWallet.Api.TxEffects

/-!
# What the queue records

A batch is acknowledged after the calls for each of its messages were answered; so what is acknowledged is recorded, and
the keys of the two stores keep it from being recorded twice.

- `QueueMessage.Needs`, `MessageBatch.Calls`: the effects of a message, the calls of a delivery;
- `processWalletTxBatch_until`: the consumer acknowledges a batch only after an answer for each effect;
- `recorded`: what a run keeps of the stores;
- `recorded_once`: every message that was acknowledged is recorded once.
-/

namespace PhygitalWallet.Api

open Async Prog Runs SqlTable OrderedMap
open Client (JsError Outcome)
open Signer (FeeEvent)

/-! ## What a message asks for -/

namespace QueueMessage

/-- The rows of a message that is parsed at a time. -/
def rows (now : ℚ) (message : QueueMessage) : List WalletActivityRow :=
  match message.body with
  | .tx receivedAt result => activityRowsFromResult result (receivedAt.getD now)
  | _ => []

def result (message : QueueMessage) : Option SubscribeTxResult :=
  match message.body with
  | .tx _ result => some result
  | _ => none

/-- The fee events of a message. -/
def fees (config : FeeConfig) (message : QueueMessage) : List (String × FeeEvent) :=
  match message.result.map config.feeEvents with
  | some (.ok fees) => fees
  | _ => []

/-- The effects of a message, with those of an event on the object of its token. -/
def Needs (config : FeeConfig) (now : ℚ) (message : QueueMessage) : TxEffect → Prop
  | .row walletAddress signature => ∃ row ∈ message.rows now, rowKey row = (walletAddress, signature)
  | .fee token signature => ∃ fee ∈ message.fees config, trimText fee.1 = token ∧ fee.2.signature = signature

end QueueMessage

theorem foldl_parseMessage (now : ℚ) (messages : List QueueMessage) (parsed : ParsedBatch) :
    messages.foldl (parseMessage now) parsed =
      ⟨parsed.rows ++ messages.flatMap (QueueMessage.rows now), parsed.feeResults ++ messages.filterMap QueueMessage.result,
        parsed.acked ++ messages.filter fun message => message.result = none⟩ := by
  induction messages generalizing parsed with
  | nil => simp
  | cons message messages ih =>
    obtain ⟨id, body⟩ := message
    rw [List.foldl_cons, ih]
    cases body with
    | malformed => simp [parseMessage, QueueMessage.rows, QueueMessage.result, List.filterMap_cons]
    | unparseable => simp [parseMessage, QueueMessage.rows, QueueMessage.result, List.filterMap_cons]
    | tx receivedAt result => simp [parseMessage, QueueMessage.rows, QueueMessage.result]

theorem parseMessages_eq (batch : MessageBatch) : parseMessages batch =
    ⟨batch.messages.flatMap (QueueMessage.rows batch.now), batch.messages.filterMap QueueMessage.result,
      batch.messages.filter fun message => message.result = none⟩ := by
  rw [parseMessages, foldl_parseMessage]
  simp

/-- Every row is in a chunk. -/
theorem mem_rowChunks {rows : List WalletActivityRow} {row : WalletActivityRow} (h : row ∈ rows) :
    ∃ chunk ∈ rowChunks rows, row ∈ chunk := by
  obtain ⟨j, hj, rfl⟩ := List.mem_iff_getElem.1 h
  have hdiv : j / D1_BATCH_CHUNK * D1_BATCH_CHUNK + j % D1_BATCH_CHUNK = j := Nat.div_add_mod' _ _
  have hmod : j % D1_BATCH_CHUNK < D1_BATCH_CHUNK := Nat.mod_lt _ (by decide)
  refine ⟨_, List.mem_map.2 ⟨j / D1_BATCH_CHUNK, List.mem_range.2 ?_, rfl⟩, ?_⟩
  · rw [Nat.div_lt_iff_lt_mul (by decide)]
    have hceil := Nat.lt_div_mul_add (a := rows.length + D1_BATCH_CHUNK - 1) (b := D1_BATCH_CHUNK) (by decide)
    omega
  · refine List.mem_iff_getElem.2 ⟨j % D1_BATCH_CHUNK, ?_, ?_⟩
    · rw [List.length_take, List.length_drop]
      omega
    · simp only [List.getElem_take, List.getElem_drop, hdiv]

theorem subset_of_mem_rowChunks {rows chunk : List WalletActivityRow} (h : chunk ∈ rowChunks rows) : chunk ⊆ rows := by
  obtain ⟨i, -, rfl⟩ := List.mem_map.1 h
  exact fun row hrow => List.mem_of_mem_drop (List.mem_of_mem_take hrow)

/-! ## The consumer, call by call -/

/-- The calls of a delivery: rows and events of its messages. -/
def MessageBatch.Calls (config : FeeConfig) (batch : MessageBatch) : TxCall → Prop
  | .insertRows rows => ∀ row ∈ rows, ∃ message ∈ batch.messages, row ∈ message.rows batch.now
  | .applyFeeEvents token events => ∀ ev ∈ events, ∃ message ∈ batch.messages, ∃ fee ∈ message.fees config,
      trimText fee.1 = token ∧ fee.2 = ev

/-- An answer to a call that has the effect. -/
def answers (x : TxEffect) (c : TxCall) (r : Except JsError c.Reply) : Bool := c.makes x && r.isOk

/-- The delivery ends in `ackAll`. -/
def acksAll : Except JsError Settlement → Bool
  | .ok settlement => settlement.verdict = .ackAll
  | .error _ => false

section Consumer

-- goals about `applyToken` would be reduced to the trimming of its token
attribute [local irreducible] trimText

variable {config : FeeConfig} {P : TxCall → Prop} {good : (c : TxCall) → Except JsError c.Reply → Bool} {x : TxEffect}

theorem until_call {c : TxCall} (h : P c) : (awaitOk c : TxProg c.Reply).Until P good fun _ => True :=
  until_awaitOk h fun _ => Or.inr trivial

theorem until_call_needs {c : TxCall} (h : c.makes x = true) :
    (awaitOk c : TxProg c.Reply).Until (fun _ => True) (answers x) fun out => out.isOk = false := by
  refine until_awaitOk trivial fun r => ?_
  rw [answers, h, Bool.true_and]
  cases r with
  | ok => exact Or.inl rfl
  | error => exact Or.inr rfl

theorem until_storeWalletActivities {rows : List WalletActivityRow} (h : ∀ chunk, chunk ⊆ rows → P (.insertRows chunk)) :
    (storeWalletActivities rows).Until P good fun _ => True :=
  until_foldlM (fun _ chunk hchunk => until_call (c := .insertRows chunk) (h chunk (subset_of_mem_rowChunks hchunk))) ()

theorem until_storeWalletActivities_needs {rows : List WalletActivityRow} {row : WalletActivityRow} (hrow : row ∈ rows)
    (hkey : .row (rowKey row).1 (rowKey row).2 = x) :
    (storeWalletActivities rows).Until (fun _ => True) (answers x) fun out => out.isOk = false := by
  obtain ⟨chunk, hchunk, hmem⟩ := mem_rowChunks hrow
  have hmakes : TxCall.makes x (.insertRows chunk) = true := by
    rw [← hkey]
    exact List.any_eq_true.2 ⟨row, hmem, decide_eq_true rfl⟩
  exact until_foldlM_of_mem (fun _ rows _ => until_call (c := .insertRows rows) trivial) hchunk
    (fun _ => until_call_needs (c := .insertRows chunk) hmakes) ()

theorem until_applyToken {entry : String × List FeeEvent} (h : P (.applyFeeEvents (trimText entry.1) entry.2))
    (result : FeeTxProcessResult) : (applyToken result entry).Until P good fun _ => True := by
  apply until_ite
  · trivial
  · exact until_bind (until_call h) (fun _ _ => trivial) fun _ _ => trivial

theorem until_applyToken_needs {entry : String × List FeeEvent}
    (h : TxCall.makes x (.applyFeeEvents (trimText entry.1) entry.2) = true) (result : FeeTxProcessResult) :
    (applyToken result entry).Until (fun _ => True) (answers x) fun out => out.isOk = false := by
  apply until_ite
  · rfl
  · exact until_bind (until_call_needs h) (fun _ hok => nomatch hok) fun _ _ => rfl

theorem until_collect (result : SubscribeTxResult) :
    (ofOutcome (config.feeEvents result) : TxProg (List (String × FeeEvent))).Until P good fun out =>
      out = config.feeEvents result := until_ofOutcome rfl

/-- The calls of a transaction are on groups of its events. -/
theorem until_processSubscribeFeeTx {result : SubscribeTxResult} (h : ∀ fees, config.feeEvents result = .ok fees →
      ∀ token events, (∀ ev ∈ events, ∃ fee ∈ fees, trimText fee.1 = token ∧ fee.2 = ev) → P (.applyFeeEvents token events)) :
    (processSubscribeFeeTx config result).Until P good fun _ => True := by
  unfold processSubscribeFeeTx
  refine until_bind (until_collect result) (fun fees hfees => ?_) fun _ _ => trivial
  apply until_foldlM
  intro b entry hentry
  apply until_applyToken
  exact h fees hfees.symm _ _ fun ev hev => ⟨_, (groups_spec fees).2 entry hentry ev hev, rfl, rfl⟩

/-- A transaction is not processed before an answer for each of its events. -/
theorem until_processSubscribeFeeTx_needs {result : SubscribeTxResult} (h : ∀ fees, config.feeEvents result = .ok fees →
      ∃ fee ∈ fees, TxEffect.fee (trimText fee.1) fee.2.signature = x) :
    (processSubscribeFeeTx config result).Until (fun _ => True) (answers x) fun out => out.isOk = false := by
  unfold processSubscribeFeeTx
  refine until_bind (until_collect result) (fun fees hfees => ?_) fun _ _ => rfl
  obtain ⟨fee, hfee, rfl⟩ := h fees hfees.symm
  obtain ⟨entry, hentry, hkey, hmem⟩ := (groups_spec fees).1 fee hfee
  have hpos := FeeConfig.feeEvents_pos hfees.symm hfee
  apply until_foldlM_of_mem _ hentry
  · intro b
    apply until_applyToken_needs
    simp only [TxCall.makes, hkey, decide_true, Bool.true_and]
    exact List.any_eq_true.2 ⟨fee.2, hmem, by simp [hpos]⟩
  · intro b _ _
    apply until_applyToken
    trivial

variable {batch : MessageBatch}

theorem mem_parsed_rows {row : WalletActivityRow} :
    row ∈ (parseMessages batch).rows ↔ ∃ message ∈ batch.messages, row ∈ message.rows batch.now := by
  rw [parseMessages_eq, List.mem_flatMap]

theorem mem_parsed_feeResults {result : SubscribeTxResult} :
    result ∈ (parseMessages batch).feeResults ↔ ∃ message ∈ batch.messages, message.result = some result := by
  rw [parseMessages_eq, List.mem_filterMap]

/-- The calls of the consumer are those of its delivery, and it acknowledges one by one what has no transaction. -/
theorem processWalletTxBatch_calls :
    (processWalletTxBatch config batch).Until (batch.Calls config) (fun _ _ => false) fun _ => True := by
  unfold processWalletTxBatch
  simp only
  split
  · trivial
  · refine until_tryCatch (Q := fun _ => True) ?_ (fun _ _ => trivial) fun _ _ => trivial
    refine until_bind (Q := fun _ => True) (until_storeWalletActivities fun chunk hchunk row hrow => ?_)
      (fun _ _ => ?_) fun _ _ => trivial
    · exact mem_parsed_rows.1 (hchunk hrow)
    · refine until_bind (Q := fun _ => True) (until_foldlM (fun _ result hresult => ?_) _) (fun _ _ => trivial)
        fun _ _ => trivial
      obtain ⟨message, hmessage, hsome⟩ := mem_parsed_feeResults.1 hresult
      refine until_bind (Q := fun _ => True) (until_processSubscribeFeeTx fun fees hfees token events hevents => ?_)
        (fun _ _ => trivial) fun _ _ => trivial
      intro ev hev
      obtain ⟨fee, hfee, heq⟩ := hevents ev hev
      refine ⟨message, hmessage, fee, ?_, heq⟩
      rw [QueueMessage.fees, hsome, Option.map_some, hfees]
      exact hfee

/-- A step of the consumer that does not end well without a good reply: no acknowledgement of all without one. -/
theorem until_tryCatch_acksAll {p : TxProg Settlement} {acked : List QueueMessage}
    (h : p.Until P good fun out => out.isOk = false) :
    (tryCatch p fun _ => pure ⟨acked, .retryAll⟩).Until P good fun out => acksAll out = false :=
  until_tryCatch h (fun _ hok => nomatch hok) fun _ _ => rfl

/-- A transaction that is not processed without a good reply. -/
theorem processWalletTxBatch_of_result {result : SubscribeTxResult} (hresult : result ∈ (parseMessages batch).feeResults)
    (h : (processSubscribeFeeTx config result).Until (fun _ => True) good fun out => out.isOk = false) :
    (processWalletTxBatch config batch).Until (fun _ => True) good fun out => acksAll out = false := by
  unfold processWalletTxBatch
  simp only
  rw [if_neg fun hnil => by rw [hnil.2] at hresult; cases hresult]
  refine until_tryCatch_acksAll ?_
  refine until_bind (Q := fun _ => True) (until_trivial (fun _ => trivial) (fun _ => trivial) _) (fun _ _ => ?_) fun _ _ => rfl
  refine until_bind (Q := fun out => out.isOk = false) ?_ (fun _ hok => nomatch hok) fun _ _ => rfl
  refine until_foldlM_of_mem (fun _ _ _ => until_trivial (fun _ => trivial) (fun _ => trivial) _) hresult (fun _ => ?_) _
  exact until_bind h (fun _ hok => nomatch hok) fun _ _ => rfl

/-- **The consumer acknowledges a batch only after an answer for each effect** of its messages. -/
theorem processWalletTxBatch_until {message : QueueMessage} (hmessage : message ∈ batch.messages)
    (hneeds : message.Needs config batch.now x) :
    (processWalletTxBatch config batch).Until (fun _ => True) (answers x) fun out => acksAll out = false := by
  cases x with
  | row walletAddress signature =>
    obtain ⟨row, hrow, hkey⟩ := hneeds
    have hparsed : row ∈ (parseMessages batch).rows := mem_parsed_rows.2 ⟨message, hmessage, hrow⟩
    unfold processWalletTxBatch
    simp only
    rw [if_neg fun hnil => by rw [hnil.1] at hparsed; cases hparsed]
    refine until_tryCatch_acksAll ?_
    refine until_bind (until_storeWalletActivities_needs hparsed ?_) (fun _ hok => nomatch hok) fun _ _ => rfl
    rw [hkey]
  | fee token signature =>
    obtain ⟨fee, hfee, htoken, hsignature⟩ := hneeds
    unfold QueueMessage.fees at hfee
    cases hresult : message.result with
    | none =>
      rw [hresult] at hfee
      cases hfee
    | some result =>
      refine processWalletTxBatch_of_result (mem_parsed_feeResults.2 ⟨message, hmessage, hresult⟩) ?_
      refine until_processSubscribeFeeTx_needs fun fees hfees => ⟨fee, ?_, by rw [htoken, hsignature]⟩
      rw [hresult, Option.map_some, hfees] at hfee
      exact hfee

/-- A transaction whose events cannot be collected is not acknowledged. -/
theorem processWalletTxBatch_error {message : QueueMessage} {result : SubscribeTxResult} {e : JsError}
    (hmessage : message ∈ batch.messages) (hresult : message.result = some result) (herror : config.feeEvents result = .error e) :
    (processWalletTxBatch config batch).Until (fun _ => True) (fun _ _ => false) fun out => acksAll out = false := by
  refine processWalletTxBatch_of_result (mem_parsed_feeResults.2 ⟨message, hmessage, hresult⟩) ?_
  unfold processSubscribeFeeTx
  refine until_bind (until_collect result) (fun fees hfees => ?_) fun _ _ => rfl
  rw [herror] at hfees
  cases hfees

/-- What is acknowledged one by one has no transaction. -/
theorem processWalletTxBatch_acked :
    (processWalletTxBatch config batch).Until (fun _ => True) (fun _ _ => false) fun out =>
      (out.toOption.any fun settlement => settlement.acked.any fun message => message.result.isSome) = false := by
  have hacked : ((parseMessages batch).acked.any fun message => message.result.isSome) = false := by
    rw [parseMessages_eq, List.any_eq_false]
    intro message hmessage
    rw [of_decide_eq_true (List.mem_filter.1 hmessage).2]
    exact Bool.false_ne_true
  unfold processWalletTxBatch
  simp only
  split
  · exact hacked
  · refine until_tryCatch (Q := fun out => ∀ settlement, out = .ok settlement → settlement.acked = (parseMessages batch).acked)
      ?_ (fun settlement h => ?_) fun _ _ => hacked
    · refine until_bind (Q := fun _ => True) (until_trivial (fun _ => trivial) (fun _ => trivial) _) (fun _ _ => ?_)
        fun _ _ => nofun
      refine until_bind (Q := fun _ => True) (until_trivial (fun _ => trivial) (fun _ => trivial) _) (fun _ _ => ?_)
        fun _ _ => nofun
      rintro settlement ⟨⟩
      rfl
    · show (settlement.acked.any _) = false
      rw [h settlement rfl]
      exact hacked

end Consumer

/-! ## Runs -/

/-- An answered call has had the effect. -/
def Answered (events : List TxEvent) (x : TxEffect) : Prop :=
  ∃ batch c r out, .reply batch c r out ∈ events ∧ answers x c r = true

/-- What the stores have comes from messages that were delivered. -/
structure Sourced (config : FeeConfig) (events : List TxEvent) (s : TxStores) : Prop where
  rows : ∀ row ∈ s.activity.rows, ∃ message now, Delivered events message ∧ row ∈ message.rows now
  changes : ∀ token ev, .fee ev ∈ (s.tokens token).history → ∃ message, Delivered events message ∧
    ∃ fee ∈ message.fees config, trimText fee.1 = token ∧ fee.2 = ev

theorem Delivered.mono {events : List TxEvent} {message : QueueMessage} (h : Delivered events message) (event : TxEvent) :
    Delivered (events ++ [event]) message := by
  obtain ⟨batch, out, hmem, hmessage⟩ := h
  exact ⟨batch, out, List.mem_append_left _ hmem, hmessage⟩

section Runs

variable {config : FeeConfig} {events : List TxEvent} {server : Server TxStores MessageBatch JsError TxCall TxCall.Reply Settlement}

theorem Sourced.mono {s : TxStores} (h : Sourced config events s) (event : TxEvent) :
    Sourced config (events ++ [event]) s := by
  constructor
  · intro row hrow
    obtain ⟨message, now, hdelivered, hmem⟩ := h.rows row hrow
    exact ⟨message, now, hdelivered.mono event, hmem⟩
  · intro token ev hev
    obtain ⟨message, hdelivered, hfee⟩ := h.changes token ev hev
    exact ⟨message, hdelivered.mono event, hfee⟩

/-- One object changes, and its events have a source. -/
theorem Sourced.update {s : TxStores} (h : Sourced config events s) {token : String} {object : TokenObject}
    (hobject : ∀ ev, .fee ev ∈ object.history → ∃ message, Delivered events message ∧
      ∃ fee ∈ message.fees config, trimText fee.1 = token ∧ fee.2 = ev) :
    Sourced config events { s with tokens := Function.update s.tokens token object } := by
  refine ⟨h.rows, fun t ev hev => ?_⟩
  by_cases ht : t = token
  · subst ht
    exact hobject ev (by simpa using hev)
  · exact h.changes t ev (by simpa [ht] using hev)

/-- A call of a delivery. -/
theorem Sourced.exec {s : TxStores} {batch : MessageBatch} {out : Option (Except JsError Settlement)} {c : TxCall}
    (h : Sourced config events s) (harrived : .arrive batch out ∈ events) (hcalls : batch.Calls config c) :
    Sourced config events (execTx c s).2 := by
  cases c with
  | insertRows rows =>
    refine ⟨fun row hrow => ?_, h.changes⟩
    rcases mem_foldl_insertOrIgnore hrow with hold | hnew
    · exact h.rows row hold
    · obtain ⟨message, hmessage, hmem⟩ := hcalls row hnew
      exact ⟨message, batch.now, ⟨batch, out, harrived, hmessage⟩, hmem⟩
  | applyFeeEvents token evs =>
    obtain ⟨applied, hsubset, hhistory, -⟩ := (s.tokens token).applyFeeEvents_spec token s.now evs
    rw [execTx_applyFeeEvents]
    refine h.update fun ev hev => ?_
    rw [hhistory] at hev
    rcases List.mem_append.1 hev with hold | hnew
    · exact h.changes token ev hold
    · obtain ⟨ev', hmem, hfee⟩ := List.mem_map.1 hnew
      cases hfee
      obtain ⟨message, hmessage, fee, hfee, hkey, heq⟩ := hcalls ev (hsubset hmem)
      exact ⟨message, ⟨batch, out, harrived, hmessage⟩, fee, hfee, hkey, heq⟩

theorem Sourced.other {s s' : TxStores} (h : Sourced config events s) (hother : OtherCalls s s') :
    Sourced config events s' := by
  cases hother with
  | clock now => exact ⟨h.rows, h.changes⟩
  | call token object hcall => exact h.update fun ev hev => h.changes token ev (hcall.fee_mem.1 hev)

/-- What a run keeps: what was answered is there, the ledger is right, and everything has a source. -/
structure Recorded (config : FeeConfig) (events : List TxEvent) (s : TxStores) : Prop where
  answered : ∀ x, Answered events x → s.Has x
  ledger : Ledger s
  sourced : Sourced config events s

theorem Recorded.snoc {s : TxStores} (h : Recorded config events s) {event : TxEvent}
    (hevent : ∀ batch c r out, event ≠ .reply batch c r out) : Recorded config (events ++ [event]) s := by
  refine ⟨fun x hx => h.answered x ?_, h.ledger, h.sourced.mono event⟩
  obtain ⟨batch, c, r, out, hmem, hanswers⟩ := hx
  rcases List.mem_append.1 hmem with hmem | hmem
  · exact ⟨batch, c, r, out, hmem, hanswers⟩
  · exact absurd (List.mem_singleton.1 hmem).symm (hevent batch c r out)

theorem recorded (hrun : (txService config).Runs .empty events server) : Recorded config events server.store := by
  have hall : Run (fun event server server' => (txService config).Step event server server' ∧ True) ⟨.empty, []⟩ events
      server := hrun.mono fun _ _ _ hstep => ⟨hstep, trivial⟩
  refine Service.Run.store (I := Recorded config) ⟨?_, Ledger.empty, ⟨?_, ?_⟩⟩
    (fun events batch out s h => h.snoc (by simp)) ?_ ?_ hall
  · rintro x ⟨batch, c, r, out, hmem, -⟩
    cases hmem
  · rintro row ⟨⟩
  · rintro token ev ⟨⟩
  · intro events server hbefore request hrequest r out s' _ htakes h
    obtain ⟨arrived, harrived⟩ := Service.Run.arrived hbefore request hrequest
    have hcalls : request.tag.Calls config request.waiting.site := by
      have hwaits := @Service.Run.waits _ _ _ _ _ _ (txService config) (fun batch => batch.Calls config)
        (fun _ _ _ => false) (fun _ _ => True) (fun _ => processWalletTxBatch_calls) _ _ _ hbefore request hrequest
      rcases hwaits with hwaits | ⟨_, _, _, _, hfalse⟩
      · exact hwaits.1
      · cases hfalse
    have hexec : s' = server.store ∨ s' = (execTx request.waiting.site server.store).2 := by
      rcases htakes with heq | ⟨e, -, rfl | rfl⟩
      · exact Or.inr (congrArg Prod.snd heq)
      · exact Or.inl rfl
      · exact Or.inr rfl
    refine ⟨fun x hx => ?_, ?_, ?_⟩
    · obtain ⟨batch, c, r', out', hmem, hanswers⟩ := hx
      rcases List.mem_append.1 hmem with hmem | hmem
      · have hhas := h.answered x ⟨batch, c, r', out', hmem, hanswers⟩
        rcases hexec with rfl | rfl
        · exact hhas
        · exact execTx_mono h.ledger hhas _
      · cases List.mem_singleton.1 hmem
        obtain ⟨hmakes, hok⟩ := Bool.and_eq_true_iff.1 hanswers
        rcases htakes with heq | ⟨e, herror, -⟩
        · have hreply : r = (execTx request.waiting.site server.store).1 := congrArg Prod.fst heq
          have hstore : s' = (execTx request.waiting.site server.store).2 := congrArg Prod.snd heq
          rw [hreply] at hok
          rw [hstore]
          exact execTx_has hmakes hok
        · rw [herror] at hok
          cases hok
    · rcases hexec with rfl | rfl
      · exact h.ledger
      · exact h.ledger.exec _
    · rcases hexec with rfl | rfl
      · exact h.sourced.mono _
      · exact (h.sourced.exec harrived hcalls).mono _
  · intro events s s' hother h
    exact Recorded.snoc ⟨fun x hx => hother.mono (h.answered x hx), h.ledger.other hother, h.sourced.other hother⟩
      (by simp)

/-- A delivery that ends so got a good reply before, where the consumer does not end so without one. -/
theorem replied_of_ends (hrun : (txService config).Runs .empty events server) {batch : MessageBatch}
    {good : (c : TxCall) → Except JsError c.Reply → Bool} {bad : Except JsError Settlement → Bool}
    (huntil : (processWalletTxBatch config batch).Until (fun _ => True) good fun out => bad out = false)
    (hends : ∃ event ∈ events, event.ends (fun t out => decide (t = batch) && bad out) = true) :
    ∃ c r out, .reply batch c r out ∈ events ∧ good c r = true := by
  obtain ⟨event, hmem, hend⟩ := hends
  exact @Service.Run.replied_of_ends _ _ _ _ _ _ (txService config) _ batch good bad huntil _ _ _ hrun event hmem hend

/-- A message that was acknowledged, with its transaction, ended a delivery in `ackAll`. -/
theorem acknowledged_ends (hrun : (txService config).Runs .empty events server) {message : QueueMessage}
    (hacked : Acknowledged events message) (htx : message.result.isSome = true) :
    ∃ batch : MessageBatch, message ∈ batch.messages ∧
      ∃ event ∈ events, event.ends (fun t out => decide (t = batch) && acksAll out) = true := by
  obtain ⟨event, hmem, batch, settlement, hwhich, hevent⟩ := hacked
  have hends : ∀ bad : Except JsError Settlement → Bool, bad (.ok settlement) = true →
      event.ends (fun t out => decide (t = batch) && bad out) = true := by
    intro bad hbad
    rcases hevent with rfl | ⟨c, r, rfl⟩
    · simp [Event.ends, hbad]
    · simp [Event.ends, hbad]
  rcases hwhich with halone | ⟨hall, hmessage⟩
  · obtain ⟨_, _, _, -, hfalse⟩ := replied_of_ends hrun processWalletTxBatch_acked
      ⟨event, hmem, hends _ (List.any_eq_true.2 ⟨message, halone, htx⟩)⟩
    cases hfalse
  · exact ⟨batch, hmessage, event, hmem, hends _ (decide_eq_true hall)⟩

/-- The effects of an acknowledged message are in the stores. -/
theorem has_of_acknowledged (hrun : (txService config).Runs .empty events server) {message : QueueMessage}
    (hacked : Acknowledged events message) {result : SubscribeTxResult} (htx : message.result = some result) :
    (∃ fees, config.feeEvents result = .ok fees) ∧
      ∃ now, ∀ x, message.Needs config now x → server.store.Has x := by
  obtain ⟨batch, hmessage, hends⟩ := acknowledged_ends hrun hacked (by rw [htx]; rfl)
  constructor
  · cases hfees : config.feeEvents result with
    | ok fees => exact ⟨fees, rfl⟩
    | error e =>
      obtain ⟨_, _, _, -, hfalse⟩ := replied_of_ends hrun (processWalletTxBatch_error hmessage htx hfees) hends
      cases hfalse
  · refine ⟨batch.now, fun x hneeds => (recorded hrun).answered x ?_⟩
    obtain ⟨c, r, out, hreply, hanswers⟩ := replied_of_ends hrun (processWalletTxBatch_until hmessage hneeds) hends
    exact ⟨batch, c, r, out, hreply, hanswers⟩

end Runs

/-! ## Once -/

/-- When a message was parsed does not change the keys of its rows. -/
theorem map_rowKey_activityRows (result : SubscribeTxResult) (receivedAt now : ℚ) :
    (activityRowsFromResult result receivedAt).map rowKey = (activityRowsFromResult result now).map rowKey := by
  have hkey : ∀ wallet confirmed signature slot blockTime,
      (mapWalletActivity wallet confirmed signature slot blockTime).map rowKey =
        if balanceDeltas wallet confirmed = [] ∧ ¬(confirmed.failed = true ∧ confirmed.feePayer = some wallet) then none
        else some (wallet, signature) := by
    intro wallet confirmed signature slot blockTime
    unfold mapWalletActivity
    simp only
    split <;> rfl
  unfold activityRowsFromResult
  split
  · rfl
  · simp only
    split
    · rfl
    · rw [List.map_filterMap, List.map_filterMap]
      simp only [hkey]

/-- The change is by an event with the signature. -/
def Cause.signed (signature : String) : Cause → Bool
  | .starter => false
  | .fee ev => ev.signature = signature

theorem filter_signed (history : List Cause) (signature : String) : history.filter (Cause.signed signature) =
    ((history.filterMap Cause.event).filter fun ev => ev.signature = signature).map .fee := by
  induction history with
  | nil => rfl
  | cons cause history ih =>
    cases cause with
    | starter => simpa [Cause.signed, Cause.event, List.filterMap_cons] using ih
    | fee ev => by_cases h : ev.signature = signature <;> simp [Cause.signed, Cause.event, h, ih]

/-- The balance of the token is what its history makes of an empty one, and one change of the history is by the event: by
the event of a delivered message, which is this one where every delivery has the same. -/
def AppliedOnce (config : FeeConfig) (events : List TxEvent) (s : TxStores) (fee : String × FeeEvent) : Prop :=
  (s.tokens (trimText fee.1)).tables.getFeeBalanceLamports =
    (s.tokens (trimText fee.1)).history.foldl Cause.next 0 ∧
  ∃ event, (s.tokens (trimText fee.1)).history.filter (Cause.signed fee.2.signature) = [.fee event] ∧
    (∃ message, Delivered events message ∧ ∃ other ∈ message.fees config,
      trimText other.1 = trimText fee.1 ∧ other.2 = event) ∧
    ((∀ message, Delivered events message → ∀ other ∈ message.fees config, trimText other.1 = trimText fee.1 →
      other.2.signature = fee.2.signature → other.2 = fee.2) → event = fee.2)

/-- The row of the wallet and the transaction is stored once: a row of a delivered message. -/
def StoredOnce (events : List TxEvent) (s : TxStores) (row : WalletActivityRow) : Prop :=
  ∃ stored, s.activity.rows.filter (fun stored => rowKey stored = rowKey row) = [stored] ∧
    ∃ message now, Delivered events message ∧ stored ∈ message.rows now

theorem Recorded.appliedOnce {config : FeeConfig} {events : List TxEvent} {s : TxStores} (h : Recorded config events s)
    {fee : String × FeeEvent} (hhas : s.Has (.fee (trimText fee.1) fee.2.signature)) : AppliedOnce config events s fee := by
  obtain ⟨ev, hev, hsignature⟩ := hhas
  have hledger := h.ledger (trimText fee.1)
  have honly := Table.filter_key_of_nodup (s.tokens (trimText fee.1)).tables.feeEvents.nodup hev
  rw [hsignature] at honly
  have hfee : .fee ev ∈ (s.tokens (trimText fee.1)).history := by
    rw [hledger.rows] at hev
    obtain ⟨cause, hcause, hevent⟩ := List.mem_filterMap.1 hev
    cases cause with
    | starter => cases hevent
    | fee ev' =>
      cases hevent
      exact hcause
  obtain ⟨message, hdelivered, other, hother, hkey, hother'⟩ := h.sourced.changes _ ev hfee
  refine ⟨hledger.balance, ev, ?_, ⟨message, hdelivered, other, hother, hkey, hother'⟩, fun hsame => ?_⟩
  · rw [filter_signed, ← hledger.rows, honly, List.map_singleton]
  · rw [← hother']
    exact hsame message hdelivered other hother hkey (by rw [hother', hsignature])

theorem Recorded.storedOnce {config : FeeConfig} {events : List TxEvent} {s : TxStores} (h : Recorded config events s)
    {row : WalletActivityRow} (hhas : s.Has (.row (rowKey row).1 (rowKey row).2)) : StoredOnce events s row := by
  obtain ⟨stored, hstored, hkey⟩ := hhas
  refine ⟨stored, ?_, h.sourced.rows stored hstored⟩
  have honly := Table.filter_key_of_nodup s.activity.nodup hstored
  rw [hkey] at honly
  exact honly

/-- **What was acknowledged is recorded, once.** In every run of deliveries, as soon as a message with a transaction is
acknowledged, each fee event of the transaction has changed the balance of its token, which is its history and nothing
else, and each row of it is stored, and neither happens a second time. -/
theorem recorded_once {config : FeeConfig} {events : List TxEvent}
    {server : Server TxStores MessageBatch JsError TxCall TxCall.Reply Settlement}
    (hrun : (txService config).Runs .empty events server) {message : QueueMessage} (hacked : Acknowledged events message)
    {receivedAt : Option ℚ} {result : SubscribeTxResult} (hbody : message.body = .tx receivedAt result) :
    (∃ fees, config.feeEvents result = .ok fees ∧ ∀ fee ∈ fees, AppliedOnce config events server.store fee) ∧
      ∀ now, ∀ row ∈ activityRowsFromResult result (receivedAt.getD now), StoredOnce events server.store row := by
  have htx : message.result = some result := by rw [QueueMessage.result, hbody]
  obtain ⟨⟨fees, hfees⟩, parsedAt, hhas⟩ := has_of_acknowledged hrun hacked htx
  refine ⟨⟨fees, hfees, fun fee hfee => ?_⟩, fun now row hrow => ?_⟩
  · refine (recorded hrun).appliedOnce (hhas _ ⟨fee, ?_, rfl, rfl⟩)
    rw [QueueMessage.fees, htx, Option.map_some, hfees]
    exact hfee
  · refine (recorded hrun).storedOnce (hhas _ ?_)
    have hmem : rowKey row ∈ (message.rows parsedAt).map rowKey := by
      rw [QueueMessage.rows, hbody, map_rowKey_activityRows result _ (receivedAt.getD now)]
      exact List.mem_map_of_mem hrow
    obtain ⟨other, hother, hkey⟩ := List.mem_map.1 hmem
    exact ⟨other, hother, hkey⟩

/-- The text `ix` stands for an `executeWithAuthority` without inner instructions; `payer` pays fees. -/
def exampleConfig : FeeConfig where
  accumulator := "accumulator"
  feePayerSet := .ok ["payer"]
  base58 text :=
    if text = "ix" then some (PhygitalWalletInstruction.executeWithAuthority.discriminator ++ [0, 0, 0, 0]) else none
  base64 _ := none
  isAddress _ := true

/-- The accumulator gains 5 lamports of the 6 that the fee payer spends. -/
def topUpMessage : QueueMessage where
  id := "1"
  body := .tx (some 1700000000) {
    signature := some "5sig"
    slot := some 100
    blockTime := none
    transaction := some {
      transaction := some {
        signatures := none
        message := some {
          accountKeys := some [.text "payer", .text "accumulator", .text crateId.text, .text "token"]
          instructions := some [⟨some 2, some [0, 3, 0, 0, 0], some "ix"⟩] } }
      txMeta := some { fee := some 1, preBalances := some [10, 0, 1, 1], postBalances := some [4, 5, 1, 1] } } }

/-- The message is delivered alone, and then twice in one batch. -/
def topUpMoves : List (Service.Move MessageBatch) :=
  [.arrive ⟨[topUpMessage], 0⟩, .serve 0, .serve 0, .arrive ⟨[topUpMessage, topUpMessage], 0⟩, .serve 0, .serve 0, .serve 0]

def topUpRun : Option (List TxEvent × Server TxStores MessageBatch JsError TxCall TxCall.Reply Settlement) :=
  (txService exampleConfig).execAll (fun _ _ => true) ⟨.empty, []⟩ topUpMoves

/-- A delivery of the message has ended in `ackAll`. -/
def acksTopUp : TxEvent → Bool
  | .reply batch _ _ (some (.ok settlement)) => settlement.verdict = .ackAll && topUpMessage ∈ batch.messages
  | _ => false

theorem recorded_once_topUp : ∃ (events : List TxEvent)
    (server : Server TxStores MessageBatch JsError TxCall TxCall.Reply Settlement) (receivedAt : Option ℚ)
    (result : SubscribeTxResult), (txService exampleConfig).Runs .empty events server ∧
      topUpMessage.body = .tx receivedAt result ∧ Acknowledged events topUpMessage ∧
      (∃ fees, exampleConfig.feeEvents result = .ok fees ∧ ∀ fee ∈ fees, AppliedOnce exampleConfig events server.store fee) ∧
      ∀ now, ∀ row ∈ activityRowsFromResult result (receivedAt.getD now), StoredOnce events server.store row := by
  have hcomputed : (topUpRun.any fun run => run.1.any acksTopUp) = true := by decide +kernel
  obtain ⟨⟨events, server⟩, hrun, hany⟩ := (Option.any_eq_true ..).1 hcomputed
  have hruns : (txService exampleConfig).Runs .empty events server :=
    (Service.run_of_execAll .nil hrun).mono fun _ _ _ h => h.1
  have hacked : Acknowledged events topUpMessage := by
    obtain ⟨event, hmem, hacks⟩ := List.any_eq_true.1 hany
    unfold acksTopUp at hacks
    split at hacks
    · next batch c r settlement =>
      rw [Bool.and_eq_true, decide_eq_true_eq, decide_eq_true_eq] at hacks
      exact ⟨_, hmem, batch, settlement, Or.inr hacks, Or.inr ⟨c, r, rfl⟩⟩
    · cases hacks
  exact ⟨events, server, _, _, hruns, rfl, hacked, recorded_once hruns hacked rfl⟩

example : topUpRun.map (fun run => ((run.2.store.tokens "token").history, run.2.store.activity.rows.map rowKey)) =
    some ([.fee ⟨"5sig:credit", .credit, 5⟩, .fee ⟨"5sig:debit", .debit, 6⟩],
      [("payer", "5sig"), ("accumulator", "5sig")]) := by
  decide +kernel

end PhygitalWallet.Api
