import GmshopEdge.Lib.Alone
import GmshopEdge.Payments.Events

/-!
# The rounds of the payment reconciliation

`reconcilePendingShopPayments` (`shop-payments/server/service.ts`) asks the providers about one page of the attempts that
may still be paid, oldest first. A round writes `updated_at` of what it asked about, and the order of the page is that
of `created_at`, so every round asks about the same page (`all_queried_iff`).

The creation times of the attempts, which nothing changes, are a function of their ids; a round takes the clock, the
credentials of the channels and the answers of the providers as arguments.
-/

namespace Gmshop

open List Sql Stmt Prog

/-! ## The code -/

structure ReconcileEnv where
  limit : Int := 20
  payment : PaymentEnv
  credential : Id → Except DomainError Unit
  answer : Id → Except DomainError PaymentQuery

/-- `queried` are the attempts that a provider was asked about; no caller gets them. -/
structure ReconciliationReply where
  scanned : Nat := 0
  succeeded : Nat := 0
  pending : Nat := 0
  failed : Nat := 0
  queried : List Id := []

def reconcileWindowMs : Nat := 86400000

/-- `ORDER BY pa.created_at,pa.id`. -/
def createdBefore (createdAt : Id → Time) (a b : PaymentAttempt) : Prop :=
  createdAt a.id < createdAt b.id ∨ createdAt a.id = createdAt b.id ∧ a.id ≤ b.id

instance (createdAt : Id → Time) : DecidableRel (createdBefore createdAt) := fun a b => by
  unfold createdBefore
  infer_instance

/-- The `WHERE` of a round. -/
def PaymentAttempt.reconcilable (s : Db) (createdAt : Id → Time) (now : Time) (a : PaymentAttempt) : Bool :=
  (a.status == .pending || a.status == .expired) &&
    (a.orderId.bind s.orders.get?).any (fun o => o.status == .pendingPayment || o.status == .expired) &&
    a.providerPaymentId.isSome &&
    (s.channels.get? a.channelId).any (fun c => c.enabled && (c.provider == .epay || c.provider == .gmpay)) &&
    decide (now ≤ createdAt a.id + reconcileWindowMs)

def dueAttempts (createdAt : Id → Time) (now : Time) (s : Db) : List PaymentAttempt :=
  (s.attempts.rows.filter fun a => a.reconcilable s createdAt now).insertionSort (createdBefore createdAt)

def selectPage (createdAt : Id → Time) (now : Time) (limit : Nat) (s : Db) : List (PaymentAttempt × ProviderPaymentId) :=
  ((dueAttempts createdAt now s).take limit).filterMap fun a => a.providerPaymentId.map fun p => (a, p)

/-- A provider is asked about the attempt: the credential of its channel loads. -/
def ReconcileEnv.asks (e : ReconcileEnv) (id : Id) : Bool := (e.credential id).toOption.isSome

/-- `none`: the attempt has thrown. -/
def ReconciliationReply.counted (reply : ReconciliationReply) (queried : List Id) : Option PaymentReply → ReconciliationReply
  | none => { reply with failed := reply.failed + 1, queried := reply.queried ++ queried }
  | some result =>
    if result.status = .succeeded then
      { reply with succeeded := reply.succeeded + 1, queried := reply.queried ++ queried }
    else { reply with pending := reply.pending + 1, queried := reply.queried ++ queried }

/-- The attempts of a page one after the other; what one of them throws is counted. -/
def reconcileEach (e : ReconcileEnv) : List (PaymentAttempt × ProviderPaymentId) → ReconciliationReply →
    Call Site ReconciliationReply
  | [], reply => return reply
  | (attempt, providerPaymentId) :: rest, reply => do
    let result : Option PaymentReply ← Prog.tryCatch
      (do
        liftExcept (e.credential attempt.id)
        let result ← reconcilePaymentAttempt attempt providerPaymentId (e.answer attempt.id) e.payment
        return some result)
      fun _ => return none
    reconcileEach e rest (reply.counted ([attempt.id].filter e.asks) result)

def reconcilePendingShopPayments (createdAt : Id → Time) (e : ReconcileEnv) : Call Site ReconciliationReply := do
  let boundedLimit := (max 1 (min 100 e.limit)).toNat
  let attempts ← Prog.query fun s => selectPage createdAt e.payment.now boundedLimit s
  reconcileEach e attempts { scanned := attempts.length }

/-! ## What a round leaves -/

def PaymentAttempt.untimed (a : PaymentAttempt) : PaymentAttempt := { a with updatedAt := 0 }

/-- The step changes `updated_at` of attempts, and else no attempt, order or channel. -/
structure OnlyTouched (s t : Db) : Prop where
  attempts : t.attempts.rows.map PaymentAttempt.untimed = s.attempts.rows.map PaymentAttempt.untimed
  orders : t.orders = s.orders
  channels : t.channels = s.channels

theorem OnlyTouched.refl (s : Db) : OnlyTouched s s := ⟨rfl, rfl, rfl⟩

variable {s t : Db} {e : ReconcileEnv} {limit : Nat} {createdAt : Id → Time}

theorem OnlyTouched.trans {u : Db} (h : OnlyTouched s t) (h' : OnlyTouched t u) : OnlyTouched s u :=
  ⟨h'.attempts.trans h.attempts, h'.orders.trans h.orders, h'.channels.trans h.channels⟩

def dueIds (createdAt : Id → Time) (now : Time) (s : Db) : List Id := (dueAttempts createdAt now s).map (·.id)

theorem OnlyTouched.dueIds_eq (h : OnlyTouched s t) (createdAt : Id → Time) (now : Time) :
    dueIds createdAt now t = dueIds createdAt now s := by
  have hsorted : ∀ u : Db, (dueAttempts createdAt now u).map PaymentAttempt.untimed =
      ((u.attempts.rows.map PaymentAttempt.untimed).filter fun a => a.reconcilable u createdAt now).insertionSort
        (createdBefore createdAt) := by
    intro u
    rw [filter_map]
    exact map_insertionSort _ _ _ _ fun a _ b _ => Iff.rfl
  have hsame : (fun a : PaymentAttempt => a.reconcilable t createdAt now) = fun a => a.reconcilable s createdAt now := by
    funext a
    rw [PaymentAttempt.reconcilable, PaymentAttempt.reconcilable, h.orders, h.channels]
  have hmap : (dueAttempts createdAt now t).map PaymentAttempt.untimed =
      (dueAttempts createdAt now s).map PaymentAttempt.untimed := by
    rw [hsorted, hsorted, h.attempts, hsame]
  have hids := congrArg (map (·.id)) hmap
  rw [map_map, map_map] at hids
  exact hids

theorem dueIds_nodup (createdAt : Id → Time) (now : Time) (s : Db) : (dueIds createdAt now s).Nodup := by
  have hkeys : (s.attempts.rows.map (·.id)).Nodup := pairwise_map.mpr s.attempts.keys_pairwise
  have hfilter := hkeys.sublist (List.Sublist.map (·.id)
    (filter_sublist (p := fun a : PaymentAttempt => a.reconcilable s createdAt now) (l := s.attempts.rows)))
  exact ((perm_insertionSort (createdBefore createdAt) _).map (fun a : PaymentAttempt => a.id)).nodup_iff.mpr hfilter

theorem selectPage_ids (createdAt : Id → Time) (now : Time) (limit : Nat) (s : Db) :
    (selectPage createdAt now limit s).map (·.1.id) = (dueIds createdAt now s).take limit := by
  have hsome : ∀ a ∈ (dueAttempts createdAt now s).take limit, ∃ p, a.providerPaymentId = some p := by
    intro a ha
    have hin := (mem_filter.mp ((mem_insertionSort _).mp (mem_of_mem_take ha))).2
    simp only [PaymentAttempt.reconcilable, Bool.and_eq_true] at hin
    exact Option.isSome_iff_exists.mp hin.1.1.2
  rw [dueIds, ← map_take, selectPage]
  generalize (dueAttempts createdAt now s).take limit = page at hsome
  induction page with
  | nil => rfl
  | cons a page ih =>
    obtain ⟨p, hp⟩ := hsome a mem_cons_self
    rw [filterMap_cons_some (b := (a, p)) (by rw [hp]; rfl), map_cons, map_cons,
      ih fun x hx => hsome x (mem_cons_of_mem _ hx)]

/-- The provider does not answer that the attempt is paid, or does not answer. -/
def stillOpen (answer : Except DomainError PaymentQuery) : Prop := ∀ q, answer = .ok q → q = .open'

theorem reconcilePaymentAttempt_open {attempt : PaymentAttempt} {p : ProviderPaymentId}
    {answer : Except DomainError PaymentQuery} {e : PaymentEnv} (hopen : stillOpen answer) (s : Db) :
    Leaves (fun r t => OnlyTouched s t ∧ r ≠ .error .killed) (reconcilePaymentAttempt attempt p answer e) s := by
  cases answer with
  | error err => exact ⟨.refl s, nofun⟩
  | ok q =>
    obtain rfl : q = .open' := hopen q rfl
    refine Leaves.commit (fun a _ => ⟨.refl s, nofun⟩) fun ns t hb => ⟨?_, nofun⟩
    obtain ⟨n, s1, ns', h1, hb1, -⟩ := batch_cons_ok hb
    obtain rfl : s1 = t := congrArg Prod.snd (Except.ok.inj hb1)
    obtain ⟨-, rows, hrows, rfl⟩ := update_ok h1
    refine ⟨?_, rfl, rfl⟩
    show rows.rows.map _ = _
    rw [hrows, map_map]
    refine map_congr_left fun a _ => ?_
    dsimp only [Function.comp]
    split <;> rfl

theorem ReconciliationReply.counted_queried (reply : ReconciliationReply) (queried : List Id) (result : Option PaymentReply) :
    (reply.counted queried result).queried = reply.queried ++ queried := by
  cases result with
  | none => rfl
  | some result =>
    unfold ReconciliationReply.counted
    dsimp only
    split <;> rfl

theorem reconcileEach_leaves {page : List (PaymentAttempt × ProviderPaymentId)} {reply : ReconciliationReply}
    (hopen : ∀ x ∈ page, stillOpen (e.answer x.1.id)) (s : Db) :
    Leaves (fun r t => OnlyTouched s t ∧ ∃ reply', r = .ok reply' ∧
      reply'.queried = reply.queried ++ (page.map (·.1.id)).filter e.asks) (reconcileEach e page reply) s := by
  induction page generalizing reply s with
  | nil => exact ⟨.refl s, reply, rfl, (append_nil _).symm⟩
  | cons x page ih =>
    obtain ⟨attempt, p⟩ := x
    refine Leaves.bind (M := fun r t => OnlyTouched s t ∧ ∃ o : Option PaymentReply, r = .ok o) ?_ (fun o t h => ?_)
      fun err t h => ?_
    · refine Leaves.tryCatch (M := fun r t => OnlyTouched s t ∧ r ≠ .error .killed) ?_ (fun o t h => ⟨h.1, o, rfl⟩)
        (fun t h => absurd rfl h.2) fun err t _ h => ⟨h.1, none, rfl⟩
      cases e.credential attempt.id with
      | error err => exact ⟨.refl s, nofun⟩
      | ok u =>
        show Leaves _ (reconcilePaymentAttempt attempt p (e.answer attempt.id) e.payment >>= fun result =>
          Prog.done (some result)) s
        exact Leaves.bind (reconcilePaymentAttempt_open (hopen _ mem_cons_self) s)
          (fun result t h => ⟨h.1, nofun⟩) fun err t h => ⟨h.1, fun hkilled => h.2 (by rw [Except.error.inj hkilled])⟩
    · refine (ih (fun x hx => hopen x (mem_cons_of_mem _ hx)) t).mono fun r u hu => ⟨h.1.trans hu.1, ?_⟩
      obtain ⟨reply', hr, hqueried⟩ := hu.2
      refine ⟨reply', hr, hqueried.trans ?_⟩
      rw [ReconciliationReply.counted_queried, append_assoc, ← filter_append]
      rfl
    · obtain ⟨-, o, ho⟩ := h
      cases ho

theorem reconcile_leaves (hlimit : e.limit = limit) (hpos : 1 ≤ limit) (hmax : limit ≤ 100)
    (hopen : ∀ id ∈ dueIds createdAt e.payment.now s, stillOpen (e.answer id)) :
    Leaves (fun r t => OnlyTouched s t ∧ ∃ reply, r = .ok reply ∧
      reply.queried = ((dueIds createdAt e.payment.now s).take limit).filter e.asks)
      (reconcilePendingShopPayments createdAt e) s := by
  have hbounded : (max 1 (min 100 e.limit)).toNat = limit := by
    omega
  refine Leaves.query ?_
  rw [hbounded]
  refine (reconcileEach_leaves (fun x hx => hopen x.1.id ?_) s).mono fun r t h => ⟨h.1, ?_⟩
  · have hin := mem_map_of_mem (f := fun x : PaymentAttempt × ProviderPaymentId => x.1.id) hx
    rw [selectPage_ids] at hin
    exact mem_of_mem_take hin
  · obtain ⟨reply, hr, hqueried⟩ := h.2
    refine ⟨reply, hr, hqueried.trans ?_⟩
    rw [selectPage_ids]
    rfl

/-! ## Rounds -/

/-- Rounds one after the other, with the attempts they ask about; between two of them others may do what leaves the
attempts that qualify as they are. -/
inductive ReconcileRounds (createdAt : Id → Time) : Db → List ReconcileEnv → List Id → Prop
  | nil (s : Db) : ReconcileRounds createdAt s [] []
  | round {s t u : Db} {e : ReconcileEnv} {es : List ReconcileEnv} {reply : ReconciliationReply} {queried : List Id}
      (hround : (reconcilePendingShopPayments createdAt e).alone s = (.ok reply, t))
      (hothers : ∀ now, dueIds createdAt now u = dueIds createdAt now t)
      (hrest : ReconcileRounds createdAt u es queried) : ReconcileRounds createdAt s (e :: es) (reply.queried ++ queried)

theorem ReconcileRounds.queried_iff (hpos : 1 ≤ limit) (hmax : limit ≤ 100) {ids : List Id}
    {es : List ReconcileEnv} {queried : List Id} (h : ReconcileRounds createdAt s es queried)
    (hlimit : ∀ e ∈ es, e.limit = limit) (hday : ∀ e ∈ es, dueIds createdAt e.payment.now s = ids)
    (hopen : ∀ e ∈ es, ∀ id ∈ ids, stillOpen (e.answer id)) (id : Id) :
    id ∈ queried ↔ id ∈ ids.take limit ∧ ∃ e ∈ es, e.asks id = true := by
  induction h with
  | nil s => simp
  | @round s t u e es reply queried hround hothers hrest ih =>
    have hids := hday e mem_cons_self
    have hleaves : Leaves _ (reconcilePendingShopPayments createdAt e) s :=
      reconcile_leaves (hlimit e mem_cons_self) hpos hmax (by
        rw [hids]
        exact hopen e mem_cons_self)
    rw [Leaves, hround] at hleaves
    obtain ⟨htouched, reply', hreply, hqueried⟩ := hleaves
    obtain rfl := Except.ok.inj hreply
    rw [hids] at hqueried
    rw [mem_append, hqueried, mem_filter, ih (fun e he => hlimit e (mem_cons_of_mem _ he))
      (fun e he => ?_) fun e he => hopen e (mem_cons_of_mem _ he)]
    · simp only [mem_cons, exists_eq_or_imp, ← and_or_left]
    · rw [hothers, htouched.dueIds_eq]
      exact hday e (mem_cons_of_mem _ he)

/-- Of `n` attempts that qualify, `⌈n / limit⌉` rounds ask about each exactly where `n` is at most the limit and the
credential of each loads in one of the rounds. -/
theorem all_queried_iff {createdAt : Id → Time} {limit : Nat} (hpos : 1 ≤ limit) (hmax : limit ≤ 100) {ids : List Id}
    {s : Db} {es : List ReconcileEnv} {queried : List Id} (h : ReconcileRounds createdAt s es queried)
    (hrounds : es.length = (ids.length + limit - 1) / limit) (hlimit : ∀ e ∈ es, e.limit = limit)
    (hday : ∀ e ∈ es, dueIds createdAt e.payment.now s = ids)
    (hopen : ∀ e ∈ es, ∀ id ∈ ids, stillOpen (e.answer id)) :
    (∀ id ∈ ids, id ∈ queried) ↔ ids.length ≤ limit ∧ ∀ id ∈ ids, ∃ e ∈ es, e.asks id = true := by
  have hqueried := h.queried_iff hpos hmax hlimit hday hopen
  constructor
  · intro hall
    refine ⟨?_, fun id hid => ((hqueried id).mp (hall id hid)).2⟩
    by_contra hmore
    -- the first attempt behind the page
    have hlt : limit < ids.length := by omega
    have hes : es ≠ [] := by
      rintro rfl
      have hzero : 0 = (ids.length + limit - 1) / limit := hrounds
      have hone : 1 ≤ (ids.length + limit - 1) / limit := (Nat.le_div_iff_mul_le (by omega)).mpr (by omega)
      omega
    obtain ⟨e, he⟩ := exists_mem_of_ne_nil es hes
    have hnodup : ids.Nodup := hday e he ▸ dueIds_nodup createdAt e.payment.now s
    have hin := ((hqueried _).mp (hall ids[limit] (getElem_mem hlt))).1
    obtain ⟨i, hi, hsame⟩ := mem_take_iff_getElem.mp hin
    have heq := (List.Nodup.getElem_inj_iff hnodup).mp hsame
    omega
  · rintro ⟨hle, hasks⟩ id hid
    rw [hqueried, take_of_length_le hle]
    exact ⟨hid, hasks id hid⟩

/-! ## Two attempts -/

def twoAttemptsDb : Db where
  orders := .of [{ id := 1, status := .pendingPayment, version := 1, totalMinor := 500 },
    { id := 2, status := .pendingPayment, version := 1, totalMinor := 500 }]
  channels := .of [{ id := 3, provider := .epay }]
  attempts := .of [{ id := 1, orderId := some 1, channelId := 3, providerPaymentId := some (.provider 11)
                     idempotencyKey := 1, status := .pending, amountMinor := 500 },
    { id := 2, orderId := some 2, channelId := 3, providerPaymentId := some (.provider 12)
      idempotencyKey := 2, status := .pending, amountMinor := 500 }]

def openRound (limit : Int) (now : Time) : ReconcileEnv :=
  ⟨limit, ⟨now, fun _ => ⟨0, 0, 0, 0⟩⟩, fun _ => .ok (), fun _ => .ok .open'⟩

theorem openRound_open (limit : Int) (now : Time) (id : Id) : stillOpen ((openRound limit now).answer id) := by
  intro q hq
  exact (Except.ok.inj hq).symm

/-- A page of two attempts. -/
theorem all_queried_iff_two : ∃ queried, ReconcileRounds id twoAttemptsDb [openRound 2 100] queried ∧
    ∀ i ∈ [1, 2], i ∈ queried := by
  obtain ⟨reply, t, hround⟩ : ∃ reply t, (reconcilePendingShopPayments id (openRound 2 100)).alone twoAttemptsDb =
      (.ok reply, t) := ⟨_, _, rfl⟩
  refine ⟨_, .round hround (fun _ => rfl) (.nil t), ?_⟩
  refine (all_queried_iff (show 1 ≤ 2 by decide) (by decide) (.round hround (fun _ => rfl) (.nil t)) (by decide)
    (fun e he => ?_) (fun e he => ?_) fun e he i _ => ?_).mpr ⟨by decide, fun i _ => ⟨_, mem_cons_self, rfl⟩⟩
  · rw [mem_singleton.mp he]
    rfl
  · rw [mem_singleton.mp he]
    decide
  · rw [mem_singleton.mp he]
    exact openRound_open 2 100 i

/-- Two attempts, pages of one: both rounds ask about the first. -/
theorem not_all_queried : ¬ ∀ (createdAt : Id → Time) (limit : Nat) (ids : List Id) (s : Db) (es : List ReconcileEnv)
    (queried : List Id), 1 ≤ limit → limit ≤ 100 → ReconcileRounds createdAt s es queried →
    es.length = (ids.length + limit - 1) / limit → (∀ e ∈ es, e.limit = limit) →
    (∀ e ∈ es, dueIds createdAt e.payment.now s = ids) → (∀ e ∈ es, ∀ id ∈ ids, stillOpen (e.answer id)) →
    (∀ e ∈ es, ∀ id ∈ ids, e.asks id = true) → ∀ id ∈ ids, id ∈ queried := by
  intro hall
  obtain ⟨reply, t, hround, hfirst⟩ : ∃ reply t, (reconcilePendingShopPayments id (openRound 1 100)).alone twoAttemptsDb =
      (.ok reply, t) ∧ reply.queried = [1] := ⟨_, _, rfl, rfl⟩
  obtain ⟨reply', u, hround', hsecond⟩ : ∃ reply u, (reconcilePendingShopPayments id (openRound 1 200)).alone t =
      (.ok reply, u) ∧ reply.queried = [1] := by
    obtain rfl := congrArg Prod.snd hround
    exact ⟨_, _, rfl, by decide⟩
  have hqueried := hall id 1 [1, 2] twoAttemptsDb [openRound 1 100, openRound 1 200] _ (by decide) (by decide)
    (.round hround (fun _ => rfl) (.round hround' (fun _ => rfl) (.nil u))) (by decide)
    (by decide) (by decide) (fun e he i _ => ?_) (fun e he i _ => ?_) 2 (by decide)
  · rw [hfirst, hsecond] at hqueried
    exact absurd hqueried (by decide)
  · simp only [mem_cons, not_mem_nil, or_false] at he
    rcases he with rfl | rfl
    · exact openRound_open 1 100 i
    · exact openRound_open 1 200 i
  · simp only [mem_cons, not_mem_nil, or_false] at he
    rcases he with rfl | rfl <;> rfl

end Gmshop
