import PhygitalWallet.Signer.TokenSigner

/-!
# Settling the reserve of a transaction

After a transaction is signed its reserve stands under the signature as `FeePayerSigner.sign` returns it, base64 text. The
debit of the fee webhook has the signature as the network writes it, base58 text. The two are never equal, so no debit
releases the reserve of its transaction.

- `signTransactions_signed`: the signatures that a call returns;
- `reserve_unsettled`: what the debit of a signed transaction does to its reserve.
-/

namespace PhygitalWallet.Signer

open Client Async Prog SqlTable TokenTables BaseText

/-! ## The signatures of a call -/

/-- A text is the co-signature of a transaction. -/
def Signed (env : SignerEnv) (wire text : String) : Prop :=
  ∃ decoded backend seed, decodeWireTransaction env.decoders wire env.accumulator = .ok decoded ∧
    env.backend = .ok backend ∧ backend.seed decoded.feePayer = some seed ∧
    text = base64Of (env.ed25519 decoded.messageBytes seed)

section Call

variable {env : SignerEnv} {backend : FeePayerSigner} {s : SignState}

theorem signatures_others {c : SignAwait} {r : Except JsError Unit} {s' : SignState} (h : othersRun c r s s') :
    s'.signatures = s.signatures := by
  obtain ⟨_, _, _, -, -, rfl⟩ := h
  rfl

/-- What a turn of the loop appends when it goes on. -/
def Appends (env : SignerEnv) (wire : String) (signatures : List String) :
    Except JsError (Option Refusal) → SignState → Prop
  | .ok none, s => ∃ text, Signed env wire text ∧ s.signatures = signatures ++ [text]
  | _, _ => True

theorem sign_eq_ok {decoded : DecodedSignTx} {seed : Bytes} (h : backend.seed decoded.feePayer = some seed) :
    backend.sign env decoded.feePayer decoded.messageBytes = .ok (base64Of (env.ed25519 decoded.messageBytes seed)) := by
  unfold FeePayerSigner.sign
  rw [h]

theorem signReserved_signed {wire : String} {decoded : DecodedSignTx} {seed : Bytes}
    (hdecode : decodeWireTransaction env.decoders wire env.accumulator = .ok decoded) (hbackend : env.backend = .ok backend)
    (hseed : backend.seed decoded.feePayer = some seed) :
    (signReserved env backend decoded).wp othersRun (fun _ _ => True) (Appends env wire s.signatures) s := by
  unfold signReserved cosign store
  simp only [wp_bind, wp_awaitOk, true_and, sign_eq_ok hseed]
  intro r t hstep
  have ht := signatures_others hstep
  cases r with
  | error e => trivial
  | ok =>
    rw [follows_ok, wp_bind, wp_call]
    generalize t.tables.reserve (messageReserveId decoded.messageBytes) minAttemptFeeLamports feeReserveTtlMs t.now = out
    obtain ⟨reserved, tables⟩ := out
    cases reserved with
    | error e => trivial
    | ok reserved =>
      cases reserved with
      | false => trivial
      | true =>
        simp only [follows_ok, Bool.not_true, Bool.false_eq_true, if_false, wp_bind, wp_modify, wp_ofOutcome,
          wp_awaitOk, true_and]
        intro r u hstep
        have hu := signatures_others hstep
        cases r with
        | error e => trivial
        | ok =>
          simp only [follows_ok, wp_bind, wp_pure, wp_call]
          obtain ⟨bound, hbound⟩ := rebindReserve_ok u.tables (messageReserveId decoded.messageBytes)
            (base64Of (env.ed25519 decoded.messageBytes seed)) u.now
          rw [hbound, follows_ok, wp_bind, wp_modify, follows_ok, wp_pure]
          refine ⟨_, ⟨decoded, backend, seed, hdecode, hbackend, hseed, rfl⟩, ?_⟩
          show u.signatures ++ _ = s.signatures ++ _
          rw [hu]
          show t.signatures ++ _ = s.signatures ++ _
          rw [ht]

/-- One turn of the loop. -/
theorem signWire_signed (hbackend : env.backend = .ok backend) (wire : String) :
    (signWire env backend wire).wp othersRun (fun _ _ => True) (Appends env wire s.signatures) s := by
  unfold signWire
  rw [wp_bind, wp_ofOutcome]
  cases hdecode : decodeWireTransaction env.decoders wire env.accumulator with
  | error e => trivial
  | ok decoded =>
    rw [follows_ok, wp_bind]
    refine wp_bindToken_any fun out t created => ?_
    cases out with
    | error e => trivial
    | ok =>
      rw [follows_ok, wp_bind, wp_modify, follows_ok]
      cases hseed : backend.seed decoded.feePayer with
      | none =>
        have hcan : backend.canSign decoded.feePayer = false := by simp [FeePayerSigner.canSign, hseed]
        rw [hcan]
        trivial
      | some seed =>
        have hcan : backend.canSign decoded.feePayer = true := by simp [FeePayerSigner.canSign, hseed]
        rw [hcan]
        simp only [Bool.not_true, Bool.false_eq_true, if_false]
        cases decoded.isFeePayingInstruction with
        | false => exact signReserved_signed hdecode hbackend hseed
        | true =>
          unfold cosign
          simp only [Bool.not_true, Bool.false_eq_true, if_false, wp_bind, wp_ofOutcome, sign_eq_ok hseed, follows_ok,
            wp_awaitOk, true_and]
          intro r u hstep
          have hu := signatures_others hstep
          cases r with
          | error e => trivial
          | ok =>
            refine ⟨_, ⟨decoded, backend, seed, hdecode, hbackend, hseed, rfl⟩, ?_⟩
            show u.signatures ++ _ = s.signatures ++ _
            rw [hu]

/-- The loop. -/
theorem signWires_signed (hbackend : env.backend = .ok backend) :
    ∀ (rest : List String) {done : List String} {s : SignState}, List.Forall₂ (Signed env) done s.signatures →
      (signWires env backend rest).wp othersRun (fun _ _ => True)
        (fun out s => out = .ok none → List.Forall₂ (Signed env) (done ++ rest) s.signatures) s
  | [], done, s, h => fun _ => by rwa [List.append_nil]
  | wire :: rest, done, s, h => by
    refine wp_seq (signWire_signed hbackend wire) (fun out u hout => ?_) (fun e u _ => nofun)
    cases out with
    | some refusal => exact nofun
    | none =>
      obtain ⟨text, htext, hu⟩ := hout
      have hdone : List.Forall₂ (Signed env) (done ++ [wire]) u.signatures := by
        rw [hu]
        exact List.rel_append h (List.Forall₂.cons htext .nil)
      have hrest := signWires_signed hbackend rest hdone
      rw [List.append_assoc, List.singleton_append] at hrest
      exact hrest

/-- **What a call returns** are the co-signatures of its transactions. -/
theorem signTransactions_signed {wires : List String} (h : s.signatures = []) :
    (signTransactions env wires).wp othersRun (fun _ _ => True)
      (fun out _ => ∀ signatures audit, out = .ok (.ok signatures audit) → List.Forall₂ (Signed env) wires signatures) s := by
  have hall : (signAll env wires).wp othersRun (fun _ _ => True) (fun out _ => ∀ signatures audit,
      out = .ok (.ok signatures audit) → List.Forall₂ (Signed env) wires signatures) s := by
    unfold signAll
    split
    · exact nofun
    · rw [wp_bind, wp_ofOutcome]
      cases hbackend : env.backend with
      | error e => exact nofun
      | ok backend =>
        rw [follows_ok, wp_bind]
        refine wp_getStore fun out t _ => ?_
        cases out with
        | error e => exact nofun
        | ok =>
          rw [follows_ok, wp_bind, store, wp_call, follows_ok]
          refine wp_seq (signWires_signed hbackend wires (by rw [h]; exact .nil)) (fun out u hout => ?_) (fun _ _ _ => nofun)
          cases out with
          | some refusal => exact nofun
          | none =>
            have hu : List.Forall₂ (Signed env) wires u.signatures := hout rfl
            unfold scheduleReserveAlarm
            rw [wp_bind, wp_bind]
            refine wp_getStore fun out t _ => ?_
            cases out with
            | error e => exact nofun
            | ok =>
              rw [follows_ok, wp_bind, wp_getState, follows_ok]
              split
              · rw [wp_awaitOk]
                refine ⟨trivial, fun r v hstep => ?_⟩
                have hv := signatures_others hstep
                cases r with
                | error e => exact nofun
                | ok =>
                  rintro signatures audit heq
                  cases heq
                  rw [hv]
                  exact hu
              · rintro signatures audit heq
                cases heq
                exact hu
  unfold signTransactions
  refine wp_tryCatch hall (fun _ _ hout => hout) (fun e u _ => ?_)
  rw [wp_bind]
  refine wp_getStore fun out t _ => ?_
  cases out with
  | error e => exact nofun
  | ok =>
    rw [follows_ok, releaseReserves, wp_bind, wp_modify, follows_ok, wp_pure]
    exact nofun

end Call

/-! ## The debit -/

/-- The debit that the fee webhook makes of a confirmed transaction. -/
def debitEvent (signature : Bytes) (lamports : Int) : FeeEvent := ⟨base58Of signature ++ ":debit", .debit, lamports⟩

/-- The debit releases the reserve, and nothing else. -/
def Settled (t : TokenTables) (now : Int) (row : FeeReserve) (e : FeeEvent) : Prop :=
  row ∉ (t.settleDebit e now).2.feeReserves.rows ∧
  (t.settleDebit e now).2.getReservedLamports now = t.getReservedLamports now - row.lamports ∧
  ∀ other ∈ t.feeReserves.rows, isOpen now other = true → other.id ≠ row.id →
    other ∈ (t.settleDebit e now).2.feeReserves.rows

/-- A reserve under the base64 text of the signature is left open. -/
theorem not_settled {signature : Bytes} (hlen : signature.length = 64) {t : TokenTables} {now lamports : Int}
    {row : FeeReserve} (hid : row.id = base64Of signature) (hrow : row ∈ t.feeReserves.rows)
    (hopen : isOpen now row = true) : ¬Settled t now row (debitEvent signature lamports) := by
  have hne : row.id ≠ stripDebit (debitEvent signature lamports).signature := by
    rw [hid, debitEvent, stripDebit_debit]
    exact base64Of_ne_base58Of (by rw [hlen]) signature
  exact fun hsettled => hsettled.1 ((mem_settleDebit hopen hne).2 hrow)

/-- **The reserve is never settled.** Of every call that succeeds, whatever others do meanwhile, the texts returned are
the signatures of the transactions. `rebindReserve` moves an open reserve of the transaction under that text; and in every
state of the tables where a reserve is open under it, the debit of the confirmed transaction does not settle it. -/
theorem reserve_unsettled {env : SignerEnv} (hlen : ∀ message seed, (env.ed25519 message seed).length = 64)
    {wires signatures : List String} {now : Int} {start : TokenTables} {created : Bool} {audit : Option SignAudit}
    {s : SignState}
    (hrun : Runs othersRun (signTransactions env wires) (.start now start created) (.ok (.ok signatures audit)) s) :
    List.Forall₂ (fun wire text => ∃ decoded backend seed,
      decodeWireTransaction env.decoders wire env.accumulator = .ok decoded ∧ env.backend = .ok backend ∧
      backend.seed decoded.feePayer = some seed ∧ text = base64Of (env.ed25519 decoded.messageBytes seed) ∧
      ∀ t now row, row ∈ t.feeReserves.rows → isOpen now row = true →
        (row.id = messageReserveId decoded.messageBytes →
          row ∉ (t.rebindReserve row.id text now).2.feeReserves.rows ∧
          ∃ row' ∈ (t.rebindReserve row.id text now).2.feeReserves.rows, row'.id = text) ∧
        (row.id = text → ∀ lamports,
          ¬Settled t now row (debitEvent (env.ed25519 decoded.messageBytes seed) lamports))) wires signatures := by
  have hsigned := hrun.sound (signTransactions_signed rfl) signatures audit rfl
  refine hsigned.imp fun wire text h => ?_
  obtain ⟨decoded, backend, seed, hdecode, hbackend, hseed, rfl⟩ := h
  refine ⟨decoded, backend, seed, hdecode, hbackend, hseed, rfl, fun t now row hrow hopen => ⟨fun hid => ?_, ?_⟩⟩
  · have hpad : (env.ed25519 decoded.messageBytes seed).length % 3 = 1 := by rw [hlen]
    have hfrom : row.id ≠ "" := by
      rw [hid]
      exact hexOf_ne_empty (List.ne_nil_of_length_pos (by rw [Sha256.length_digest]; omega))
    have hto : base64Of (env.ed25519 decoded.messageBytes seed) ≠ "" :=
      base64Of_ne_empty (List.ne_nil_of_length_pos (by rw [hlen]; omega))
    have hne : row.id ≠ base64Of (env.ed25519 decoded.messageBytes seed) := by
      rw [hid]
      exact (base64Of_ne_hexOf hpad _).symm
    exact ⟨rebindReserve_from hfrom hto hne hopen rfl, rebindReserve_to hrow hopen hfrom hto hne⟩
  · exact fun hid lamports => not_settled (hlen _ _) hid hrow hopen

theorem exampleReserve_open : exampleReserve ∈ exampleSigned.feeReserves.rows ∧ isOpen 1000 exampleReserve = true := by
  rw [exampleRun_signed.2]
  exact ⟨List.mem_singleton.2 rfl, rfl⟩

theorem reserve_unsettled_example :
    ¬Settled exampleSigned 1000 exampleReserve (debitEvent exampleSignature 5000) := by
  have hall := (List.forall₂_cons.1 (reserve_unsettled length_exampleEd25519 runs_signed)).1
  obtain ⟨decoded, backend, seed, hdecode, hbackend, hseed, -, h⟩ := hall
  have hdecoded : decodeWireTransaction exampleDecoders exampleWire (Pubkey.fill 4).text =
      .ok ⟨exampleMessageBytes, examplePayer, .fill 8, false⟩ := by decide +kernel
  have hd : decoded = ⟨exampleMessageBytes, examplePayer, .fill 8, false⟩ := Except.ok.inj (hdecode.symm.trans hdecoded)
  have hb : backend = ⟨[(examplePayer, exampleSeed)]⟩ := (Except.ok.inj hbackend).symm
  rw [hb, hd] at hseed
  have hs : seed = exampleSeed := (Option.some.inj hseed).symm
  have hsig : exampleEnv.ed25519 decoded.messageBytes seed = exampleSignature := by
    rw [hd, hs, example_ed25519]
  rw [← hsig]
  exact (h exampleSigned 1000 exampleReserve exampleReserve_open.1 exampleReserve_open.2).2 rfl 5000

/-- Signed at time 0 and debited a second later, the example's reserve is still open. -/
theorem reserve_left_open :
    Runs othersRun (signTransactions exampleEnv [exampleWire]) (.start 0 exampleTables false)
      (.ok (.ok [base64Of exampleSignature] (some ⟨examplePayer, 1, 1⟩))) (exampleRun [exampleWire] 0 exampleTables).2 ∧
    exampleReserve ∈ exampleSigned.feeReserves.rows ∧ isOpen 1000 exampleReserve = true ∧
    exampleReserve ∈ (exampleSigned.settleDebit (debitEvent exampleSignature 5000) 1000).2.feeReserves.rows ∧
    ¬Settled exampleSigned 1000 exampleReserve (debitEvent exampleSignature 5000) := by
  obtain ⟨hrow, hopen⟩ := exampleReserve_open
  have hkept : exampleReserve ∈ (exampleSigned.settleDebit (debitEvent exampleSignature 5000) 1000).2.feeReserves.rows := by
    refine (mem_settleDebit hopen ?_).2 hrow
    rw [debitEvent, stripDebit_debit]
    exact base64Of_ne_base58Of rfl _
  exact ⟨runs_signed, hrow, hopen, hkept, fun hsettled => hsettled.1 hkept⟩

end PhygitalWallet.Signer
