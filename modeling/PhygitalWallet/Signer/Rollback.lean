import PhygitalWallet.Signer.TokenSigner

/-!
# The rollback of `signTransactions`

A call that ends in a refusal or an error deletes the rows under the ids it has collected. An id may name a row that was
there before: `reserve` takes an open row under the message hash as its own, and so does `rebindReserve` under the
signature.

- `expected`: the reserves as they would be without the call;
- `Held`: what the call has done to the reserves when it waits, `signWire_held`, `signWires_held`;
- `rollback_own`: when the reserves are as expected after a call that failed.
-/

namespace PhygitalWallet.Signer

open Client Async Prog SqlTable TokenTables

/-! ## What is expected -/

/-- The row under an id had the call not run: the one at the start, or the one that others left there last. -/
def expected (start : TokenTables) (others : List (TokenTables × TokenTables)) (id : String) : Option FeeReserve :=
  others.foldl (fun row change =>
    if change.2.feeReserves.find id = change.1.feeReserves.find id then row else change.2.feeReserves.find id)
    (start.feeReserves.find id)

/-- The open reserves are those that are expected. -/
def RolledBack (start : TokenTables) (s : SignState) : Prop :=
  ∀ row, isOpen s.now row = true → (row ∈ s.tables.feeReserves.rows ↔ expected start s.others row.id = some row)

/-- The ids under which the reserve of a transaction stands, before and after it is signed. -/
def reserveIds (env : SignerEnv) (wire : String) : List String :=
  match decodeWireTransaction env.decoders wire env.accumulator, env.backend with
  | .ok decoded, .ok backend =>
    if decoded.isFeePayingInstruction then []
    else
      match backend.sign env decoded.feePayer decoded.messageBytes with
      | .ok signature => [messageReserveId decoded.messageBytes, signature]
      | .error _ => []
  | _, _ => []

def callIds (env : SignerEnv) (wires : List String) : List String := wires.flatMap (reserveIds env)

/-- The ids that a call has taken: those of the transactions that it has signed, and those that it would release. -/
def takenIds (env : SignerEnv) (wires : List String) (s : SignState) : List String :=
  callIds env (wires.take s.signatures.length) ++ s.reservedIds

/-- Others meanwhile open no reserve under an id of the call's transactions. -/
def othersSpare (env : SignerEnv) (wires : List String) : Env SignState JsError SignAwait (fun _ => Unit) :=
  fun c r s s' => othersRun c r s s' ∧ ∀ row ∈ s'.tables.feeReserves.rows, isOpen s'.now row = true →
    row.id ∈ callIds env wires → row ∈ s.tables.feeReserves.rows

theorem expected_concat (start t t' : TokenTables) (others : List (TokenTables × TokenTables)) (id : String) :
    expected start (others ++ [(t, t')]) id =
      if t'.feeReserves.find id = t.feeReserves.find id then expected start others id else t'.feeReserves.find id := by
  simp [expected, List.foldl_append]

theorem mem_iff_find {t : TokenTables} {row : FeeReserve} :
    row ∈ t.feeReserves.rows ↔ t.feeReserves.find row.id = some row :=
  ⟨fun h => Table.find_eq_some.2 ⟨h, rfl⟩, fun h => (Table.find_eq_some.1 h).1⟩

theorem isOpen_mono {now now' : Int} {row : FeeReserve} (h : now ≤ now') (hopen : isOpen now' row = true) :
    isOpen now row = true := by
  unfold isOpen at hopen ⊢
  rw [decide_eq_true_eq] at hopen ⊢
  omega

theorem mem_releaseAll {ids : List String} {t : TokenTables} {row : FeeReserve} :
    row ∈ (releaseAll t ids).feeReserves.rows ↔ row ∈ t.feeReserves.rows ∧ row.id ∉ ids := by
  induction ids generalizing t with
  | nil => simp [releaseAll]
  | cons id ids ih =>
    have hstep : releaseAll t (id :: ids) = releaseAll (t.deleteReserve id) ids := rfl
    rw [hstep, ih, deleteReserve, Table.mem_delete, List.mem_cons, not_or, and_assoc]

/-! ## What the call holds -/

/-- Outside the ids that the call has taken the open reserves are as expected; under them every open one will be
released. -/
structure Held (start : TokenTables) (ids : List String) (s : SignState) : Prop where
  same : ∀ row, isOpen s.now row = true → row.id ∉ ids →
    (row ∈ s.tables.feeReserves.rows ↔ expected start s.others row.id = some row)
  own : ∀ row, isOpen s.now row = true → row.id ∈ ids → row ∈ s.tables.feeReserves.rows → row.id ∈ s.reservedIds
  taken : ∀ id ∈ s.reservedIds, id ∈ ids
  created : s.storeCreated = true

/-- Nothing is left open under the ids that the call has taken. -/
structure Ended (start : TokenTables) (ids : List String) (s : SignState) : Prop where
  same : ∀ row, isOpen s.now row = true → row.id ∉ ids →
    (row ∈ s.tables.feeReserves.rows ↔ expected start s.others row.id = some row)
  gone : ∀ row, isOpen s.now row = true → row.id ∈ ids → row ∉ s.tables.feeReserves.rows

section Call

variable {start : TokenTables} {ids ids' : List String} {s s' : SignState}

theorem Ended.rolledBack (h : Ended start ids s) : RolledBack start s ↔
    ∀ row, isOpen s.now row = true → expected start s.others row.id = some row → row.id ∉ ids := by
  constructor
  · intro hback row hopen hrow hid
    exact h.gone row hopen hid ((hback row hopen).2 hrow)
  · intro hfree row hopen
    by_cases hid : row.id ∈ ids
    · refine iff_of_false (h.gone row hopen hid) fun hrow => ?_
      exact hfree row hopen hrow hid
    · exact h.same row hopen hid

theorem Held.congr (h : Held start ids s) (hids : ∀ id, id ∈ ids ↔ id ∈ ids') : Held start ids' s where
  same row hopen hid := h.same row hopen fun hmem => hid ((hids _).1 hmem)
  own row hopen hid := h.own row hopen ((hids _).2 hid)
  taken id hid := (hids id).1 (h.taken id hid)
  created := h.created

theorem Ended.congr (h : Ended start ids s) (hids : ∀ id, id ∈ ids ↔ id ∈ ids') : Ended start ids' s where
  same row hopen hid := h.same row hopen fun hmem => hid ((hids _).1 hmem)
  gone row hopen hid := h.gone row hopen ((hids _).2 hid)

/-- The ids that would be released may be counted twice. -/
theorem Held.append (h : Held start ids s) : Held start (ids ++ s.reservedIds) s :=
  h.congr fun id => by
    rw [List.mem_append]
    exact ⟨Or.inl, fun hid => hid.elim (fun hid => hid) (h.taken id)⟩

theorem Held.release (h : Held start ids s) :
    Ended start ids { s with tables := releaseAll s.tables s.reservedIds } where
  same row hopen hid := by
    refine (mem_releaseAll.trans (and_iff_left ?_)).trans (h.same row hopen hid)
    exact fun hmem => hid (h.taken _ hmem)
  gone row hopen hid hmem := by
    obtain ⟨hrow, hfree⟩ := mem_releaseAll.1 hmem
    exact hfree (h.own row hopen hid hrow)

/-- A step that leaves the open rows alone. -/
theorem Held.frame (h : Held start ids s) {t : TokenTables}
    (hrows : ∀ row, isOpen s.now row = true → (row ∈ t.feeReserves.rows ↔ row ∈ s.tables.feeReserves.rows)) :
    Held start ids { s with tables := t } where
  same row hopen hid := (hrows row hopen).trans (h.same row hopen hid)
  own row hopen hid hrow := h.own row hopen hid ((hrows row hopen).1 hrow)
  taken := h.taken
  created := h.created

/-- What others do while the call waits. -/
theorem Held.others {env : SignerEnv} {wires : List String} {c : SignAwait} {r : Except JsError Unit}
    (h : Held start ids s) (hids : ∀ id ∈ ids, id ∈ callIds env wires) (hstep : othersSpare env wires c r s s') :
    Held start ids s' ∧ s'.signatures = s.signatures ∧ s'.reservedIds = s.reservedIds := by
  obtain ⟨⟨now, tables, created, hnow, hcreated, rfl⟩, hspare⟩ := hstep
  refine ⟨⟨?_, ?_, h.taken, hcreated h.created⟩, rfl, rfl⟩
  · intro row hopen hid
    have hbefore := h.same row (isOpen_mono hnow hopen) hid
    rw [mem_iff_find] at hbefore
    show row ∈ tables.feeReserves.rows ↔ expected start (s.others ++ [(s.tables, tables)]) row.id = some row
    rw [mem_iff_find, expected_concat]
    split
    · next heq => rw [heq, hbefore]
    · exact Iff.rfl
  · intro row hopen hid hrow
    exact h.own row (isOpen_mono hnow hopen) hid (hspare row hrow hopen (hids _ hid))

end Call

/-! ## One transaction -/

/-- What one turn of the loop leaves, after the turns for `done`. -/
def AfterWire (env : SignerEnv) (start : TokenTables) (done : List String) (wire : String) :
    Except JsError (Option Refusal) → SignState → Prop
  | .ok none, s => Held start (callIds env (done ++ [wire])) s ∧ s.signatures.length = done.length + 1
  | .ok (some _), s => (Ended start (callIds env done ++ s.reservedIds) s ∧
      ∀ id ∈ s.reservedIds, id ∈ callIds env (done ++ [wire])) ∧ s.signatures.length = done.length
  | .error _, s => (Held start (callIds env done ++ s.reservedIds) s ∧
      ∀ id ∈ s.reservedIds, id ∈ callIds env (done ++ [wire])) ∧ s.signatures.length = done.length

section Wire

variable {env : SignerEnv} {backend : FeePayerSigner} {start : TokenTables} {wires done : List String} {wire : String}
  {decoded : DecodedSignTx} {s : SignState}

theorem mem_callIds_concat {id : String} :
    id ∈ callIds env (done ++ [wire]) ↔ id ∈ callIds env done ∨ id ∈ reserveIds env wire := by
  simp [callIds, List.flatMap_append]

theorem Held.reservedIds_sub (h : Held start (callIds env done) s) (id : String) (hid : id ∈ s.reservedIds) :
    id ∈ callIds env (done ++ [wire]) := mem_callIds_concat.2 (Or.inl (h.taken id hid))

theorem reserveIds_eq {signature : String} (hbackend : env.backend = .ok backend)
    (hdecode : decodeWireTransaction env.decoders wire env.accumulator = .ok decoded)
    (hpays : decoded.isFeePayingInstruction = false)
    (hsign : backend.sign env decoded.feePayer decoded.messageBytes = .ok signature) :
    reserveIds env wire = [messageReserveId decoded.messageBytes, signature] := by
  simp [reserveIds, hbackend, hdecode, hpays, hsign]

/-- `reserve` has given the id a row, or has taken an open one. -/
theorem Held.reserved {ids : List String} {id : String} (h : Held start ids s) :
    Held start (ids ++ [id]) { s with
      tables := (s.tables.reserve id minAttemptFeeLamports feeReserveTtlMs s.now).2
      reservedIds := s.reservedIds ++ [id] } where
  same row hopen hid := by
    rw [List.mem_append, not_or, List.mem_singleton] at hid
    exact (mem_reserve hopen (Or.inl hid.2)).trans (h.same row hopen hid.1)
  own row hopen hid hrow := by
    by_cases hnew : row.id = id
    · exact List.mem_append.2 (Or.inr (List.mem_singleton.2 hnew))
    · have hold : row.id ∈ ids := (List.mem_append.1 hid).resolve_right fun hmem => hnew (List.mem_singleton.1 hmem)
      exact List.mem_append.2 (Or.inl (h.own row hopen hold ((mem_reserve hopen (Or.inl hnew)).1 hrow)))
  taken id' hid := by
    rcases List.mem_append.1 hid with hid | hid
    · exact List.mem_append.2 (Or.inl (h.taken id' hid))
    · exact List.mem_append.2 (Or.inr hid)
  created := h.created

/-- The row has moved from the message hash to the signature. -/
theorem Held.rebound {ids reservedIds : List String} {id signature : String}
    (h : Held start (ids ++ [id]) s) (hreserved : s.reservedIds = reservedIds ++ [id]) (hid : id ≠ "")
    (hsignature : signature ≠ "") :
    Held start (ids ++ [id, signature]) { s with
      tables := (s.tables.rebindReserve id signature s.now).2
      reservedIds := reservedIds ++ [signature] } where
  same row hopen hmem := by
    simp only [List.mem_append, List.mem_cons, List.not_mem_nil, or_false, not_or] at hmem
    obtain ⟨hold, hfrom, hto⟩ := hmem
    refine (mem_rebindReserve hfrom hto).trans (h.same row hopen fun hrow => ?_)
    rcases List.mem_append.1 hrow with hrow | hrow
    · exact hold hrow
    · exact hfrom (List.mem_singleton.1 hrow)
  own row hopen hmem hrow := by
    show row.id ∈ reservedIds ++ [signature]
    by_cases hto : row.id = signature
    · exact List.mem_append.2 (Or.inr (List.mem_singleton.2 hto))
    · have hfrom : row.id ≠ id := by
        intro hfrom
        refine rebindReserve_from hid hsignature (fun heq => ?_) hopen hfrom hrow
        exact hto (hfrom.trans heq)
      have hown : row.id ∈ s.reservedIds := by
        refine h.own row hopen ?_ ((mem_rebindReserve hfrom hto).1 hrow)
        simp only [List.mem_append, List.mem_cons, List.not_mem_nil, or_false] at hmem ⊢
        rcases hmem with hmem | hmem | hmem
        · exact Or.inl hmem
        · exact Or.inr hmem
        · exact absurd hmem hto
      rw [hreserved] at hown
      rcases List.mem_append.1 hown with hown | hown
      · exact List.mem_append.2 (Or.inl hown)
      · exact absurd (List.mem_singleton.1 hown) hfrom
  taken id' hmem := by
    rcases List.mem_append.1 hmem with hmem | hmem
    · have hold := h.taken id' (by rw [hreserved]; exact List.mem_append.2 (Or.inl hmem))
      simp only [List.mem_append, List.mem_cons, List.not_mem_nil, or_false] at hold ⊢
      tauto
    · simp only [List.mem_append, List.mem_cons, List.not_mem_nil, or_false]
      exact Or.inr (Or.inr (List.mem_singleton.1 hmem))
  created := h.created

theorem length_text_ne {bytes : Bytes} {n : Nat} (h : bytes.length = n + 1) : bytes ≠ [] := by
  rintro rfl
  cases h

theorem sign_ne_empty {feePayer : Pubkey} {message : Bytes} {signature : String}
    (hlen : ∀ message seed, (env.ed25519 message seed).length = 64)
    (hsign : backend.sign env feePayer message = .ok signature) : signature ≠ "" := by
  unfold FeePayerSigner.sign at hsign
  split at hsign
  · cases hsign
  · cases hsign
    exact BaseText.base64Of_ne_empty (length_text_ne (hlen _ _))

/-- The end of a turn with a reserve: the row moves from the message hash to the signature. -/
theorem rebindSigned_held {reservedIds : List String} {id signature : String} (hhash : id ≠ "") (hsignature : signature ≠ "")
    (hwire : callIds env (done ++ [wire]) = callIds env done ++ [id, signature])
    (hids : ∀ id ∈ callIds env (done ++ [wire]), id ∈ callIds env wires)
    (hsign : backend.sign env decoded.feePayer decoded.messageBytes = .ok signature)
    (h : Held start (callIds env done ++ [id]) s) (hreserved : s.reservedIds = reservedIds ++ [id])
    (hn : s.signatures.length = done.length) :
    (do let signature ← cosign env backend decoded
        let _ ← store fun t now => t.rebindReserve id signature now
        modify fun s =>
          { s with reservedIds := s.reservedIds.dropLast ++ [signature], signatures := s.signatures ++ [signature] }
        return none : SignProg (Option Refusal)).wp
      (othersSpare env wires) (fun _ _ => True) (AfterWire env start done wire) s := by
  have hsub : ∀ id' ∈ callIds env done ++ [id], id' ∈ callIds env (done ++ [wire]) := by
    intro id' hid'
    rw [hwire]
    simp only [List.mem_append, List.mem_cons, List.not_mem_nil, or_false] at hid' ⊢
    tauto
  unfold cosign store
  simp only [wp_bind, wp_ofOutcome, hsign, follows_ok, wp_awaitOk, true_and]
  intro r u hstep
  obtain ⟨hu, hsig, hres⟩ := h.others (fun id' hid' => hids id' (hsub id' hid')) hstep
  rw [hreserved] at hres
  have hnu : u.signatures.length = done.length := by rw [hsig]; exact hn
  cases r with
  | error e =>
    refine ⟨⟨hu.append.congr fun id' => ?_, fun id' hid' => hsub id' (hu.taken id' hid')⟩, hnu⟩
    rw [hres]
    simp only [List.mem_append, List.mem_cons, List.not_mem_nil, or_false]
    tauto
  | ok =>
    simp only [follows_ok, wp_bind, wp_pure, wp_call]
    have hdrop : u.reservedIds.dropLast = reservedIds := by rw [hres, List.dropLast_concat]
    have hrebound : Held start (callIds env done ++ [id, signature]) { u with
        tables := (u.tables.rebindReserve id signature u.now).2
        reservedIds := reservedIds ++ [signature] } := hu.rebound hres hhash hsignature
    obtain ⟨bound, hbound⟩ := rebindReserve_ok u.tables id signature u.now
    rw [hbound, follows_ok, wp_bind, wp_modify, follows_ok, wp_pure, hdrop]
    refine ⟨?_, ?_⟩
    · rw [hwire]
      exact ⟨hrebound.same, hrebound.own, hrebound.taken, hrebound.created⟩
    · simp [hnu]

/-- **A transaction with a reserve.** -/
theorem signReserved_held {signature : String} (hlen : ∀ message seed, (env.ed25519 message seed).length = 64)
    (hids : ∀ id ∈ callIds env (done ++ [wire]), id ∈ callIds env wires)
    (hreserve : reserveIds env wire = [messageReserveId decoded.messageBytes, signature])
    (hsign : backend.sign env decoded.feePayer decoded.messageBytes = .ok signature)
    (h : Held start (callIds env done) s) (hn : s.signatures.length = done.length) :
    (signReserved env backend decoded).wp (othersSpare env wires) (fun _ _ => True) (AfterWire env start done wire) s := by
  have hwire : callIds env (done ++ [wire]) = callIds env done ++ [messageReserveId decoded.messageBytes, signature] := by
    simp [callIds, List.flatMap_append, hreserve]
  have hdone : ∀ id ∈ callIds env done, id ∈ callIds env wires := fun id hid =>
    hids id (mem_callIds_concat.2 (Or.inl hid))
  have hhash : messageReserveId decoded.messageBytes ≠ "" :=
    BaseText.hexOf_ne_empty (length_text_ne (Sha256.length_digest _))
  unfold signReserved
  generalize messageReserveId decoded.messageBytes = id at hwire hhash ⊢
  simp only [wp_bind, wp_awaitOk, true_and]
  intro r t hstep
  obtain ⟨ht, hsig, -⟩ := h.others hdone hstep
  rw [← hsig] at hn
  cases r with
  | error e => exact ⟨⟨ht.append, ht.reservedIds_sub⟩, hn⟩
  | ok =>
    rw [follows_ok, wp_bind, store, wp_call]
    have hkept : (t.tables.reserve id minAttemptFeeLamports feeReserveTtlMs t.now).1 ≠ .ok true →
        Held start (callIds env done) { t with
          tables := (t.tables.reserve id minAttemptFeeLamports feeReserveTtlMs t.now).2 } :=
      fun hno => ht.frame fun row hopen => mem_reserve hopen (Or.inr hno)
    have hadded : Held start (callIds env done ++ [id]) { t with
        tables := (t.tables.reserve id minAttemptFeeLamports feeReserveTtlMs t.now).2
        reservedIds := t.reservedIds ++ [id] } := ht.reserved
    generalize t.tables.reserve id minAttemptFeeLamports feeReserveTtlMs t.now = out at hkept hadded ⊢
    obtain ⟨reserved, tables⟩ := out
    cases reserved with
    | error e => exact ⟨⟨(hkept (by simp)).append, ht.reservedIds_sub⟩, hn⟩
    | ok reserved =>
      cases reserved with
      | false => exact ⟨⟨(hkept (by simp)).append.release, ht.reservedIds_sub⟩, hn⟩
      | true =>
        rw [follows_ok, Bool.not_true, if_neg (by decide), wp_bind, wp_modify, follows_ok]
        exact rebindSigned_held hhash (sign_ne_empty hlen hsign) hwire hids hsign hadded rfl hn

/-- A top-up, which takes no reserve. -/
theorem cosign_held {signature : String} (hids : ∀ id ∈ callIds env done, id ∈ callIds env wires)
    (hreserve : reserveIds env wire = []) (hsign : backend.sign env decoded.feePayer decoded.messageBytes = .ok signature)
    (h : Held start (callIds env done) s) (hn : s.signatures.length = done.length) :
    (do let signature ← cosign env backend decoded
        modify fun s => { s with signatures := s.signatures ++ [signature] }
        return none : SignProg (Option Refusal)).wp (othersSpare env wires) (fun _ _ => True)
      (AfterWire env start done wire) s := by
  have hwire : callIds env (done ++ [wire]) = callIds env done := by simp [callIds, List.flatMap_append, hreserve]
  unfold cosign
  simp only [wp_bind, wp_ofOutcome, hsign, follows_ok, wp_awaitOk, true_and]
  intro r t hstep
  obtain ⟨ht, hsig, -⟩ := h.others hids hstep
  rw [← hsig] at hn
  cases r with
  | error e => exact ⟨⟨ht.append, ht.reservedIds_sub⟩, hn⟩
  | ok =>
    refine ⟨?_, by simp [hn]⟩
    rw [hwire]
    exact ⟨ht.same, ht.own, ht.taken, ht.created⟩

/-- **One turn of the loop.** -/
theorem signWire_held (hbackend : env.backend = .ok backend)
    (hlen : ∀ message seed, (env.ed25519 message seed).length = 64)
    (hids : ∀ id ∈ callIds env (done ++ [wire]), id ∈ callIds env wires)
    (h : Held start (callIds env done) s) (hn : s.signatures.length = done.length) :
    (signWire env backend wire).wp (othersSpare env wires) (fun _ _ => True) (AfterWire env start done wire) s := by
  have hdone : ∀ id ∈ callIds env done, id ∈ callIds env wires := fun id hid =>
    hids id (mem_callIds_concat.2 (Or.inl hid))
  unfold signWire
  rw [wp_bind, wp_ofOutcome]
  cases hdecode : decodeWireTransaction env.decoders wire env.accumulator with
  | error e => exact ⟨⟨h.append, h.reservedIds_sub⟩, hn⟩
  | ok decoded =>
    rw [follows_ok, wp_bind]
    refine wp_bindToken h.created fun out t ht => ?_
    have hframe : Held start (callIds env done) { s with tables := t } := h.frame fun row _ => by rw [ht]
    cases out with
    | error e => exact ⟨⟨hframe.append, hframe.reservedIds_sub⟩, hn⟩
    | ok =>
      rw [follows_ok, wp_bind, wp_modify, follows_ok]
      have hseen : Held start (callIds env done) { s with tables := t, feePayerSeen := some decoded.feePayer } :=
        ⟨hframe.same, hframe.own, hframe.taken, hframe.created⟩
      by_cases hcan : backend.canSign decoded.feePayer = true
      · obtain ⟨seed, hseed⟩ := Option.isSome_iff_exists.1 hcan
        have hsign : backend.sign env decoded.feePayer decoded.messageBytes =
            .ok (BaseText.base64Of (env.ed25519 decoded.messageBytes seed)) := by
          unfold FeePayerSigner.sign
          rw [hseed]
        rw [hcan]
        simp only [Bool.not_true, Bool.false_eq_true, if_false]
        cases hpays : decoded.isFeePayingInstruction with
        | false =>
          exact signReserved_held hlen hids (reserveIds_eq hbackend hdecode hpays hsign) hsign hseen hn
        | true =>
          have hreserve : reserveIds env wire = [] := by simp [reserveIds, hbackend, hdecode, hpays]
          exact cosign_held hdone hreserve hsign hseen hn
      · rw [Bool.not_eq_true] at hcan
        rw [hcan]
        exact ⟨⟨hseen.append.release, h.reservedIds_sub⟩, hn⟩

end Wire

/-! ## The call -/

/-- What the loop leaves. -/
def AfterWires (env : SignerEnv) (start : TokenTables) (wires : List String) :
    Except JsError (Option Refusal) → SignState → Prop
  | .ok none, s => Held start (callIds env wires) s ∧ s.signatures.length = wires.length
  | .ok (some _), s => Ended start (takenIds env wires s) s ∧ ∀ id ∈ takenIds env wires s, id ∈ callIds env wires
  | .error _, s => Held start (takenIds env wires s) s ∧ ∀ id ∈ takenIds env wires s, id ∈ callIds env wires

section Call

variable {env : SignerEnv} {backend : FeePayerSigner} {start : TokenTables} {wires : List String} {s : SignState}

/-- The ids taken after the turns for `done`. -/
theorem takenIds_eq {done rest : List String} (h : s.signatures.length = done.length) :
    takenIds env (done ++ rest) s = callIds env done ++ s.reservedIds := by
  rw [takenIds, h, List.take_left]

theorem mem_taken {done : List String} {wire : String} {reservedIds : List String}
    (hids : ∀ id ∈ callIds env (done ++ [wire]), id ∈ callIds env wires)
    (hsub : ∀ id ∈ reservedIds, id ∈ callIds env (done ++ [wire])) :
    ∀ id ∈ callIds env done ++ reservedIds, id ∈ callIds env wires := by
  intro id hid
  rcases List.mem_append.1 hid with hid | hid
  · exact hids id (mem_callIds_concat.2 (Or.inl hid))
  · exact hids id (hsub id hid)

/-- **The loop**, by induction on the transactions that are left. -/
theorem signWires_held (hbackend : env.backend = .ok backend)
    (hlen : ∀ message seed, (env.ed25519 message seed).length = 64) :
    ∀ (rest done : List String) {s : SignState}, wires = done ++ rest → Held start (callIds env done) s →
      s.signatures.length = done.length →
      (signWires env backend rest).wp (othersSpare env wires) (fun _ _ => True) (AfterWires env start wires) s
  | [], done, s, hwires, h, hn => by
    rw [List.append_nil] at hwires
    subst hwires
    exact ⟨h, hn⟩
  | wire :: rest, done, s, hwires, h, hn => by
    have hids : ∀ id ∈ callIds env (done ++ [wire]), id ∈ callIds env wires := by
      intro id hid
      rw [hwires, ← List.singleton_append, ← List.append_assoc]
      simp only [callIds, List.flatMap_append, List.mem_append] at hid ⊢
      exact Or.inl hid
    refine wp_seq (signWire_held hbackend hlen hids h hn) (fun out s hout => ?_) (fun e s hout => ?_)
    · cases out with
      | none =>
        refine signWires_held hbackend hlen rest (done ++ [wire]) (by simp [hwires]) hout.1 ?_
        rw [hout.2, List.length_append, List.length_singleton]
      | some refusal =>
        obtain ⟨⟨hended, hsub⟩, hout⟩ := hout
        show Ended start (takenIds env wires s) s ∧ ∀ id ∈ takenIds env wires s, id ∈ callIds env wires
        rw [hwires, takenIds_eq hout, ← hwires]
        exact ⟨hended, mem_taken hids hsub⟩
    · obtain ⟨⟨hheld, hsub⟩, hout⟩ := hout
      show Held start (takenIds env wires s) s ∧ ∀ id ∈ takenIds env wires s, id ∈ callIds env wires
      rw [hwires, takenIds_eq hout, ← hwires]
      exact ⟨hheld, mem_taken hids hsub⟩

/-- The call has not come to the reserves. -/
structure Fresh (start : TokenTables) (s : SignState) : Prop where
  reserves : s.tables.feeReserves = start.feeReserves
  others : s.others = []
  signatures : s.signatures = []
  reservedIds : s.reservedIds = []

theorem fresh_start (now : Int) (tables : TokenTables) (created : Bool) :
    Fresh tables (.start now tables created) := ⟨rfl, rfl, rfl, rfl⟩

theorem Fresh.tables (h : Fresh start s) {t : TokenTables} {created : Bool} (ht : t.feeReserves = s.tables.feeReserves) :
    Fresh start { s with tables := t, storeCreated := created } :=
  ⟨ht.trans h.reserves, h.others, h.signatures, h.reservedIds⟩

theorem Fresh.ended (h : Fresh start s) :
    Ended start (takenIds env wires s) s ∧ ∀ id ∈ takenIds env wires s, id ∈ callIds env wires := by
  have hids : takenIds env wires s = [] := by simp [takenIds, callIds, h.signatures, h.reservedIds]
  rw [hids]
  refine ⟨⟨fun row _ _ => ?_, nofun⟩, nofun⟩
  rw [h.others, mem_iff_find, h.reserves]
  exact Iff.rfl

/-- What stands before the loop. -/
theorem Fresh.held (h : Fresh start s) (hcreated : s.storeCreated = true) :
    Held start (callIds env []) { s with tables := s.tables.expireReserves s.now } where
  same row hopen _ := by
    refine (mem_expireReserves hopen).trans ?_
    rw [mem_iff_find, h.reserves, h.others]
    exact Iff.rfl
  own _ _ hid := (List.not_mem_nil hid).elim
  taken id hid := by
    rw [h.reservedIds] at hid
    exact hid
  created := hcreated

/-- What the body of the `try` leaves. -/
def AfterAll (env : SignerEnv) (start : TokenTables) (wires : List String) :
    Except JsError SignTransactionsResult → SignState → Prop
  | .ok (.ok _ _), _ => True
  | .ok (.refused _), s => Ended start (takenIds env wires s) s ∧ ∀ id ∈ takenIds env wires s, id ∈ callIds env wires
  | .error _, s => Fresh start s ∨ (s.storeCreated = true ∧ Held start (takenIds env wires s) s ∧
      ∀ id ∈ takenIds env wires s, id ∈ callIds env wires)

theorem takenIds_all (h : s.signatures.length = wires.length) :
    takenIds env wires s = callIds env wires ++ s.reservedIds := by
  simp [takenIds, h]

theorem signAll_held (hlen : ∀ message seed, (env.ed25519 message seed).length = 64) (h : Fresh start s) :
    (signAll env wires).wp (othersSpare env wires) (fun _ _ => True) (AfterAll env start wires) s := by
  unfold signAll
  split
  · exact h.ended
  · rw [wp_bind, wp_ofOutcome]
    cases hbackend : env.backend with
    | error e => exact Or.inl h
    | ok backend =>
      rw [follows_ok, wp_bind]
      refine wp_getStore fun out t ht => ?_
      cases out with
      | error e => exact Or.inl (h.tables ht)
      | ok =>
        rw [follows_ok, wp_bind, store, wp_call, follows_ok]
        have hfresh : Fresh start { s with tables := t, storeCreated := true } := h.tables ht
        refine wp_seq (signWires_held hbackend hlen wires [] rfl (hfresh.held rfl) (by simp [h.signatures])) ?_ ?_
        · intro out u hout
          cases out with
          | some refusal => exact hout
          | none =>
            obtain ⟨hu, hn⟩ := hout
            unfold scheduleReserveAlarm
            rw [wp_bind, wp_bind]
            refine wp_getStore_created hu.created ?_
            rw [follows_ok, wp_bind, wp_getState, follows_ok]
            split
            · rw [wp_awaitOk]
              refine ⟨trivial, fun r v hstep => ?_⟩
              obtain ⟨hv, hsig, -⟩ := hu.others (fun _ => id) hstep
              rw [← hsig] at hn
              cases r with
              | error e =>
                refine Or.inr ⟨hv.created, ?_⟩
                rw [takenIds_all hn]
                refine ⟨hv.append, fun id hid => ?_⟩
                exact (List.mem_append.1 hid).elim (fun hid => hid) (hv.taken id)
              | ok => trivial
            · trivial
        · intro e u hout
          exact Or.inr ⟨hout.1.created, hout⟩

/-- A call ends in a refusal or an error. -/
def Failed (out : Except JsError SignTransactionsResult) : Prop := ∀ signatures audit, out ≠ .ok (.ok signatures audit)

theorem signTransactions_ended (hlen : ∀ message seed, (env.ed25519 message seed).length = 64) (h : Fresh start s) :
    (signTransactions env wires).wp (othersSpare env wires) (fun _ _ => True)
      (fun out s => Failed out → Ended start (takenIds env wires s) s ∧
        ∀ id ∈ takenIds env wires s, id ∈ callIds env wires) s := by
  unfold signTransactions
  refine wp_tryCatch (signAll_held hlen h) (fun out u hout => ?_) (fun e u hout => ?_)
  · cases out with
    | ok signatures audit => exact fun hfailed => absurd rfl (hfailed signatures audit)
    | refused refusal => exact fun _ => hout
  · rw [wp_bind]
    rcases hout with hfresh | ⟨hcreated, hheld, hsub⟩
    · refine wp_getStore fun out t ht => ?_
      have hafter : Fresh start { u with tables := t, storeCreated := true } := hfresh.tables ht
      cases out with
      | error e => exact fun _ => hafter.ended
      | ok =>
        rw [follows_ok, releaseReserves, wp_bind, wp_modify, follows_ok, wp_pure]
        intro _
        refine Fresh.ended ⟨?_, hafter.others, hafter.signatures, hafter.reservedIds⟩
        show (releaseAll t u.reservedIds).feeReserves = start.feeReserves
        rw [hfresh.reservedIds]
        exact hafter.reserves
    · refine wp_getStore_created hcreated ?_
      rw [follows_ok, releaseReserves, wp_bind, wp_modify, follows_ok, wp_pure]
      exact fun _ => ⟨hheld.release, hsub⟩

end Call

/-! ## When the rollback is clean -/

/-- **The rollback.** In every run of a call that fails, on any tables, while others change the tables but open no reserve
under an id of the call's transactions: the open reserves are as expected where none that is expected to be open stands
under an id of the call's transactions, and exactly where none stands under one that the call had taken when it failed. -/
theorem rollback_own {env : SignerEnv} (hlen : ∀ message seed, (env.ed25519 message seed).length = 64)
    {wires : List String} {now : Int} {start : TokenTables} {created : Bool}
    {out : Except JsError SignTransactionsResult} {s : SignState}
    (hrun : Runs (othersSpare env wires) (signTransactions env wires) (.start now start created) out s)
    (hfailed : Failed out) :
    ((∀ row, isOpen s.now row = true → expected start s.others row.id = some row → row.id ∉ callIds env wires) →
      RolledBack start s) ∧
    (RolledBack start s ↔ ∀ row, isOpen s.now row = true → expected start s.others row.id = some row →
      row.id ∉ takenIds env wires s) := by
  obtain ⟨hended, hsub⟩ := hrun.sound (signTransactions_ended hlen (fresh_start now start created)) hfailed
  refine ⟨fun hfree => hended.rolledBack.2 fun row hopen hrow hid => ?_, hended.rolledBack⟩
  exact hfree row hopen hrow (hsub _ hid)

/-! ## An example -/

theorem othersSpare_wait (env : SignerEnv) (wires : List String) (c : SignAwait) (r : Except JsError Unit) (s : SignState) :
    othersSpare env wires c r s s.wait := ⟨othersRun_wait c r s, fun _ hrow _ _ => hrow⟩

theorem runs_example (wires : List String) (now : Int) (tables : TokenTables) :
    Runs (othersSpare exampleEnv wires) (signTransactions exampleEnv wires) (.start now tables false)
      (exampleRun wires now tables).1 (exampleRun wires now tables).2 :=
  runs_alone (fun c s => othersSpare_wait exampleEnv wires c (.ok ()) s) _ _

/-- The response to a list whose last text is not a transaction. -/
def exampleRefusal : Refusal :=
  { status := 500, error := .message codecError, code := "signer_error", details := none, soft := none }

theorem failed_refused {out : Except JsError SignTransactionsResult} {refusal : Refusal}
    (h : out = .ok (.refused refusal)) : Failed out := by
  rintro signatures audit rfl
  cases h

/-- Others have changed nothing. -/
theorem expected_quiet {start : TokenTables} {others : List (TokenTables × TokenTables)}
    (h : (others.all fun change => change.2.feeReserves = change.1.feeReserves) = true) (id : String) :
    expected start others id = start.feeReserves.find id := by
  unfold expected
  generalize start.feeReserves.find id = row
  induction others with
  | nil => rfl
  | cons change others ih =>
    simp only [List.all_cons, Bool.and_eq_true, decide_eq_true_eq] at h
    rw [List.foldl_cons, h.1, if_pos rfl]
    exact ih h.2

/-- The hash of a transaction that another call is about to sign. -/
def otherHash : String := String.ofList (List.replicate 64 'a')

/-- The tables in which that call has taken its reserve. -/
def exampleHeld : TokenTables := (exampleTables.reserve otherHash 200000 90000 0).2

/-- A call that fails after a transaction that it has signed; the other reserve stays. -/
theorem rollback_own_held : RolledBack exampleHeld (exampleRun [exampleWire, ""] 0 exampleHeld).2 ∧
    (exampleRun [exampleWire, ""] 0 exampleHeld).2.signatures ≠ [] ∧
    (exampleRun [exampleWire, ""] 0 exampleHeld).2.tables.feeReserves.rows = [⟨otherHash, 200000, 0, 90000⟩] := by
  have hrun : (exampleRun [exampleWire, ""] 0 exampleHeld).1 = .ok (.refused exampleRefusal) ∧
      ((exampleRun [exampleWire, ""] 0 exampleHeld).2.others.all
        fun change => change.2.feeReserves = change.1.feeReserves) = true ∧
      (exampleRun [exampleWire, ""] 0 exampleHeld).2.signatures ≠ [] ∧
      (exampleRun [exampleWire, ""] 0 exampleHeld).2.tables.feeReserves.rows = [⟨otherHash, 200000, 0, 90000⟩] := by
    decide +kernel
  obtain ⟨hout, hquiet, hsigned, hrows⟩ := hrun
  have hfree : ∀ row ∈ exampleHeld.feeReserves.rows, row.id ∉ callIds exampleEnv [exampleWire, ""] := by decide +kernel
  refine ⟨(rollback_own length_exampleEd25519 (runs_example _ _ _) (failed_refused hout)).1 fun row _ hrow => ?_, hsigned,
    hrows⟩
  rw [expected_quiet hquiet] at hrow
  exact hfree row (Table.find_eq_some.1 hrow).1

/-- The transaction is sent once more, with a text that is not one: the reserve that the first call has left is gone. -/
theorem rollback_other :
    Runs othersRun (signTransactions exampleEnv [exampleWire]) (.start 0 exampleTables false)
      (.ok (.ok [BaseText.base64Of exampleSignature] (some ⟨examplePayer, 1, 1⟩)))
      (exampleRun [exampleWire] 0 exampleTables).2 ∧
    exampleReserve ∈ exampleSigned.feeReserves.rows ∧ isOpen 1000 exampleReserve = true ∧
    Runs (othersSpare exampleEnv [exampleWire, ""]) (signTransactions exampleEnv [exampleWire, ""])
      (.start 1000 exampleSigned false) (.ok (.refused exampleRefusal)) (exampleRun [exampleWire, ""] 1000 exampleSigned).2 ∧
    ¬RolledBack exampleSigned (exampleRun [exampleWire, ""] 1000 exampleSigned).2 := by
  have hsecond : (exampleRun [exampleWire, ""] 1000 exampleSigned).1 = .ok (.refused exampleRefusal) ∧
      (exampleRun [exampleWire, ""] 1000 exampleSigned).2.now = 1000 ∧
      (exampleRun [exampleWire, ""] 1000 exampleSigned).2.tables.feeReserves.rows = [] ∧
      ((exampleRun [exampleWire, ""] 1000 exampleSigned).2.others.all
        fun change => change.2.feeReserves = change.1.feeReserves) = true := by decide +kernel
  obtain ⟨hout, hnow, hrows, hquiet⟩ := hsecond
  have hmem : exampleReserve ∈ exampleSigned.feeReserves.rows := by
    rw [exampleRun_signed.2]
    exact List.mem_singleton.2 rfl
  refine ⟨?_, hmem, rfl, ?_, fun hback => ?_⟩
  · exact runs_signed
  · rw [← hout]
    exact runs_example _ _ _
  · have hkept := (hback exampleReserve (by rw [hnow]; rfl)).2 (by rw [expected_quiet hquiet]; exact mem_iff_find.1 hmem)
    rw [hrows] at hkept
    cases hkept

end PhygitalWallet.Signer
