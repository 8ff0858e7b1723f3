import AstraGate.Api.Billing
import Mathlib.Algebra.BigOperators.Group.Finset.Basic

open Function Numeric
open scoped BigOperators

namespace Billing

-- The user and the amount that a payment intent's metadata names.
def Metadata.credit? (md : Metadata) : Option (UUID × Decimal) := do
  let userId ← nonempty? md.userId >>= parseUuid
  let amount ← nonempty? md.amount >>= Decimal.parse
  return (userId, amount)

-- The amount that is meant for `u`, if the metadata names `u`.
def Metadata.amountFor (md : Metadata) (u : UUID) : Option Decimal :=
  md.credit?.bind fun (v, amount) => if v = u then some amount else none

namespace Database

def balance (db : Database) (u : UUID) : ℚ :=
  db.creditAccounts u |>.elim 0 CreditAccount.balanceUsd

def isTopup (u : UUID) (id : String) (tx : CreditTransaction) : Bool :=
  tx.userId = u ∧ tx.type = .topup ∧ tx.stripePaymentIntentId = some id

def topups (db : Database) (u : UUID) (id : String) : Nat :=
  db.creditTransactions.countP (isTopup u id)

-- The account exists, and its balance is one that the column holds.
def Stored (db : Database) (u : UUID) : Prop :=
  ∃ account, db.creditAccounts u = some account ∧
    Fits 6 account.balanceUsd ∧ |account.balanceUsd| < 10 ^ 6

end Database

-- The row takes the amount: all columns are wide enough for what they are given.
structure Accepts (account : CreditAccount) (d : Decimal.Signed) : Prop where
  scale  : -maxScale ≤ d.magnitude.exponent
  sum    : Takes 12 6 (Decimal.inContext 28 (account.balanceUsd + d.value))
  last   : Takes 10 2 d.value
  amount : Takes 12 6 d.value

section

variable {db : Database} {u : UUID} {event : Event} {md : Metadata} {now : Time} {id : String}
  {account new : CreditAccount} {tx : CreditTransaction} {amount : Decimal} {d : Decimal.Signed}

theorem storeTopUp_of_accepts (h : Accepts account d) :
    storeTopUp now u (.finite d) id account =
      let sum := quantize 6 (Decimal.inContext 28 (account.balanceUsd + d.value))
      some (⟨sum, some (quantize 2 d.value), some now, none⟩,
        ⟨u, .topup, quantize 6 d.value, sum, some id, none⟩) := by
  refine if_pos ⟨h.scale, ⟨h.sum, ?_⟩, h.amount, h.sum⟩
  intro amount ha
  cases ha
  exact h.last

theorem accepts_of_storeTopUp (h : storeTopUp now u amount id account = some (new, tx)) :
    ∃ d, amount = .finite d ∧ Accepts account d := by
  cases amount
  case infinity => cases h
  case nan      => cases h
  case finite d =>
    have ⟨⟨hs, ha, ht⟩, _⟩ := Option.ite_none_right_eq_some.mp h
    exact ⟨d, rfl, hs, ha.left, ha.right d.value rfl, ht.left⟩

theorem stripeWebhook_eq (h : event.type = "payment_intent.succeeded") :
    (stripeWebhook now event db).2 =
      match event.object.metadata.credit? with
      | none => db
      | some (v, amount) =>
        match (db.creditAccounts v).bind (storeTopUp now v amount event.object.id) with
        | none => db
        | some (account, tx) => {
            creditAccounts := update db.creditAccounts v (some account)
            creditTransactions := db.creditTransactions ++ [tx] } := by
  simp only [stripeWebhook, h, if_true, Metadata.credit?]
  cases nonempty? event.object.metadata.userId <;>
    cases nonempty? event.object.metadata.amount <;> simp
  case some.some userIdStr amountStr =>
    cases parseUuid userIdStr <;> simp
    case some v =>
      cases Decimal.parse amountStr <;> simp
      case some amount =>
        cases db.creditAccounts v <;> simp
        case some account =>
          cases storeTopUp now v amount event.object.id account <;> rfl

end

-- One delivery of a payment intent with its metadata.
def deliver (metadata : String → Metadata) (db : Database) (d : Time × String) : Database :=
  (stripeWebhook d.1 ⟨"payment_intent.succeeded", d.2, metadata d.2⟩ db).2

section

variable {metadata : String → Metadata} {db : Database} {u : UUID} {ds : List (Time × String)}
  {amount : Decimal} {d : Time × String} {md : Metadata} {q : Decimal.Signed}
  {account : CreditAccount} {id : String}

open Database

theorem amountFor_eq_some_iff : md.amountFor u = some amount ↔ md.credit? = some (u, amount) := by
  rw [Metadata.amountFor]
  cases md.credit? <;> simp
  case some credit =>
    obtain ⟨v, amount'⟩ := credit
    by_cases hv : v = u <;> simp [hv]

theorem deliver_of_amountFor (h : (metadata d.2).amountFor u = some amount) :
    deliver metadata db d =
      match (db.creditAccounts u).bind (storeTopUp d.1 u amount d.2) with
      | none => db
      | some (account, tx) => {
          creditAccounts := update db.creditAccounts u (some account)
          creditTransactions := db.creditTransactions ++ [tx] } := by
  rw [deliver, stripeWebhook_eq rfl]
  simp only [amountFor_eq_some_iff.mp h]

-- Deliveries for others leave the account and its topups alone.
theorem deliver_of_others (h : (metadata d.2).amountFor u = none) :
    (deliver metadata db d).creditAccounts u = db.creditAccounts u ∧
      ∀ id, (deliver metadata db d).topups u id = db.topups u id := by
  rw [deliver, stripeWebhook_eq rfl]
  dsimp only
  cases hc : (metadata d.2).credit?
  case none => exact ⟨rfl, fun _ => rfl⟩
  case some credit =>
    obtain ⟨v, amount⟩ := credit
    have hv : u ≠ v := by
      rintro rfl
      cases h.symm.trans (amountFor_eq_some_iff.mpr hc)
    dsimp only
    cases hs : (db.creditAccounts v).bind (storeTopUp d.1 v amount d.2)
    case none => exact ⟨rfl, fun _ => rfl⟩
    case some stored =>
      have ⟨account, _, hs⟩ := Option.bind_eq_some_iff.mp hs
      obtain ⟨q, rfl, ha⟩ := accepts_of_storeTopUp hs
      cases (storeTopUp_of_accepts ha).symm.trans hs
      refine ⟨update_of_ne hv _ _, fun id => ?_⟩
      simp [topups, isTopup, Ne.symm hv]

theorem deliver_of_accepts (h : (metadata d.2).amountFor u = some (.finite q))
    (ha : db.creditAccounts u = some account) (hq : Accepts account q) :
    (∃ new, (deliver metadata db d).creditAccounts u = some new ∧
      new.balanceUsd = quantize 6 (Decimal.inContext 28 (account.balanceUsd + q.value))) ∧
      ∀ id, (deliver metadata db d).topups u id = db.topups u id + if id = d.2 then 1 else 0 := by
  rw [deliver_of_amountFor h, ha, Option.bind_some, storeTopUp_of_accepts hq]
  refine ⟨⟨_, update_self u _ _, rfl⟩, fun id => ?_⟩
  simp [topups, isTopup, List.countP_cons, eq_comm]

theorem deliver_of_refuses (h : (metadata d.2).amountFor u = some amount)
    (ha : db.creditAccounts u = some account)
    (hq : ∀ q, amount = .finite q → ¬Accepts account q) : deliver metadata db d = db := by
  rw [deliver_of_amountFor h, ha, Option.bind_some]
  cases hs : storeTopUp d.1 u amount d.2 account
  case none => rfl
  case some stored =>
    have ⟨q, hf, hq'⟩ := accepts_of_storeTopUp hs
    exact absurd hq' (hq q hf)

-- The amount in the metadata is a number, and one that the ledger holds as it is.
def Exact (u : UUID) (md : Metadata) : Prop :=
  ∃ q, md.amountFor u = some (.finite q) ∧ -maxScale ≤ q.magnitude.exponent ∧
    Fits 6 q.value ∧ |q.value| < 10 ^ 6

-- What is to be credited to `u` for a payment with this metadata.
def credited (u : UUID) (md : Metadata) : ℚ :=
  md.amountFor u |>.bind Decimal.toRat? |>.getD 0

-- The balance with the amount is one that the column holds.
def Room (db : Database) (u : UUID) (md : Metadata) : Prop :=
  |db.balance u + credited u md| < 10 ^ 6

-- What is added to a balance that is stored is added without a loss.
theorem inContext_add (hb : Fits 6 account.balanceUsd) (hl : |account.balanceUsd| < 10 ^ 6)
    (hq : Fits 6 q.value) (hq' : |q.value| < 10 ^ 6) :
    Decimal.inContext 28 (account.balanceUsd + q.value) = account.balanceUsd + q.value := by
  have hs : |account.balanceUsd + q.value| < 10 ^ 7 := by
    calc
      _ ≤ |account.balanceUsd| + |q.value| := abs_add_le _ _
      _ < 10 ^ 7                           := by linarith
  exact Decimal.inContext_eq_self (Decimal.precise_of_fits (hb.add hq) hs (by decide))

-- An exact amount is accepted just if there is room for it.
theorem accepts_iff (hb : Fits 6 account.balanceUsd) (hl : |account.balanceUsd| < 10 ^ 6)
    (hs : -maxScale ≤ q.magnitude.exponent) (hq : Fits 6 q.value) (hq' : |q.value| < 10 ^ 6) :
    Accepts account q ↔ |account.balanceUsd + q.value| < 10 ^ 6 := by
  have hc := inContext_add hb hl hq hq'
  have ht : Takes 12 6 (account.balanceUsd + q.value) ↔ _ := takes_iff_of_fits (hb.add hq)
  constructor
  case mp =>
    intro h
    have ha := h.sum
    rwa [hc, ht] at ha
  case mpr =>
    intro h
    exact {
      scale  := hs
      sum    := by rwa [hc, ht]
      last   := by
        have hf : Fits 2 (10 ^ 6 : ℚ) := ⟨10 ^ 8, by norm_num⟩
        exact (abs_quantize_le hf hq'.le).trans_lt (by norm_num)
      amount := (takes_iff_of_fits hq).mpr hq' }

theorem deliver_stored (h : db.Stored u) : (deliver metadata db d).Stored u := by
  have ⟨account, ha, hb, hl⟩ := h
  cases hn : (metadata d.2).amountFor u
  case none =>
    rw [Stored, (deliver_of_others hn).left]
    exact h
  case some amount =>
    by_cases hq : ∃ q, amount = .finite q ∧ Accepts account q
    case pos =>
      obtain ⟨q, rfl, hq⟩ := hq
      have ⟨⟨new, hs, hb⟩, _⟩ := deliver_of_accepts hn ha hq
      exact ⟨new, hs, hb ▸ fits_quantize 6 _, hb ▸ hq.sum⟩
    case neg =>
      rw [deliver_of_refuses hn ha fun q hf hq' => hq ⟨q, hf, hq'⟩]
      exact h

theorem foldl_deliver_stored (h : db.Stored u) : (ds.foldl (deliver metadata) db).Stored u := by
  induction ds generalizing db
  case nil          => exact h
  case cons d ds ih => exact ih (deliver_stored h)

theorem balance_of_some (h : db.creditAccounts u = some account) :
    db.balance u = account.balanceUsd := by
  rw [Database.balance, h]
  rfl

-- The delivery is booked, and the balance grows by the amount.
def Credits (metadata : String → Metadata) (db : Database) (u : UUID) (d : Time × String) : Prop :=
  (deliver metadata db d).balance u = db.balance u + credited u (metadata d.2) ∧
    ∀ id, (deliver metadata db d).topups u id = db.topups u id + if id = d.2 then 1 else 0

-- What names `u` is credited in full, is not booked, or breaks the books.
theorem credits_iff (hs : db.Stored u) (hn : ((metadata d.2).amountFor u).isSome) :
    Credits metadata db u d ↔ Exact u (metadata d.2) ∧ Room db u (metadata d.2) := by
  have ⟨account, ha, hb, hl⟩ := hs
  have ⟨amount, hn⟩ := Option.isSome_iff_exists.mp hn
  have hc := balance_of_some ha
  constructor
  case mp =>
    intro ⟨hbal, ht⟩
    by_cases hq : ∃ q, amount = .finite q ∧ Accepts account q
    case neg =>
      rw [deliver_of_refuses hn ha fun q hf hq' => hq ⟨q, hf, hq'⟩] at ht
      have ht := ht d.2
      rw [if_pos rfl] at ht
      omega
    case pos =>
      obtain ⟨q, rfl, hq⟩ := hq
      have ⟨⟨new, hnew, hnb⟩, _⟩ := deliver_of_accepts hn ha hq
      have hv : credited u (metadata d.2) = q.value := by rw [credited, hn]; rfl
      rw [balance_of_some hnew, hnb, hc, hv] at hbal
      have hf : Fits 6 (account.balanceUsd + q.value) := hbal ▸ fits_quantize 6 _
      have hf : Fits 6 q.value := add_sub_cancel_left account.balanceUsd q.value ▸ hf.sub hb
      refine ⟨⟨q, hn, hq.scale, hf, (takes_iff_of_fits hf).mp hq.amount⟩, ?_⟩
      rw [Room, hc, hv, ← hbal]
      exact hq.sum
  case mpr =>
    intro ⟨⟨q, hn, hsc, hf, hq⟩, hr⟩
    have hv : credited u (metadata d.2) = q.value := by rw [credited, hn]; rfl
    rw [Room, hc, hv] at hr
    have ⟨⟨new, hnew, hnb⟩, ht⟩ :=
      deliver_of_accepts hn ha ((accepts_iff hb hl hsc hf hq).mpr hr)
    refine ⟨?_, ht⟩
    rw [balance_of_some hnew, hnb, hc, hv, inContext_add hb hl hf hq, quantize_eq_self (hb.add hf)]

-- An exact amount for which there is no room is not booked at all.
theorem deliver_of_not_room (hs : db.Stored u) (hx : Exact u (metadata d.2))
    (hr : ¬Room db u (metadata d.2)) : deliver metadata db d = db := by
  have ⟨account, ha, hb, hl⟩ := hs
  have ⟨q, hn, hsc, hf, hq⟩ := hx
  refine deliver_of_refuses hn ha fun q' he hq' => hr ?_
  cases he
  have hv : credited u (metadata d.2) = q.value := by rw [credited, hn]; rfl
  rw [Room, balance_of_some ha, hv]
  exact (accepts_iff hb hl hsc hf hq).mp hq'

variable (metadata u) in
-- The payment intents that were delivered for `u`.
def delivered (ds : List (Time × String)) : Finset String :=
  ds.map Prod.snd |>.filter (fun id => ((metadata id).amountFor u).isSome) |>.toFinset

theorem delivered_append (ds : List (Time × String)) (d : Time × String) :
    delivered metadata u (ds ++ [d]) =
      if ((metadata d.2).amountFor u).isSome then insert d.2 (delivered metadata u ds)
      else delivered metadata u ds := by
  ext id
  cases hn : ((metadata d.2).amountFor u).isSome <;> simp [delivered, hn]

variable (metadata db u ds) in
-- Every payment intent delivered for `u` is credited once, and booked once.
def ExactlyOnce : Prop :=
  let db' := ds.foldl (deliver metadata) db
  let ids := delivered metadata u ds
  db'.balance u = db.balance u + ∑ id ∈ ids, credited u (metadata id) ∧
    ∀ id, db'.topups u id = db.topups u id + if id ∈ ids then 1 else 0

variable (metadata db u ds) in
-- A delivery for `u` is of an exact amount, and there is room for it just if its payment intent
-- has not been delivered before.
def Apt (d : Time × String) : Prop :=
  ((metadata d.2).amountFor u).isSome → Exact u (metadata d.2) ∧
    (Room (ds.foldl (deliver metadata) db) u (metadata d.2) ↔ d.2 ∉ delivered metadata u ds)

theorem exactlyOnce_append_iff (hs : db.Stored u) (ho : ExactlyOnce metadata db u ds)
    (hx : ∀ id ∈ delivered metadata u ds, Exact u (metadata id)) :
    ExactlyOnce metadata db u (ds ++ [d]) ↔ Apt metadata db u ds d := by
  have hs : (ds.foldl (deliver metadata) db).Stored u := foldl_deliver_stored hs
  have ⟨hb, ht⟩ := ho
  rw [ExactlyOnce, Apt, delivered_append, List.foldl_append, List.foldl_cons, List.foldl_nil]
  generalize ds.foldl (deliver metadata) db = db' at hs hb ht
  cases hn : ((metadata d.2).amountFor u).isSome
  case false =>
    have hn : (metadata d.2).amountFor u = none := Option.isSome_eq_false_iff.mp hn |>
      Option.isNone_iff_eq_none.mp
    have ⟨ha, ht'⟩ : _ ∧ ∀ id, (deliver metadata db' d).topups u id = _ := deliver_of_others hn
    refine iff_of_true ⟨?_, fun id => (ht' id).trans (ht id)⟩ (by simp)
    rw [if_neg (by simp), ← hb, balance, ha, ← balance]
  case true =>
    have hc : Credits metadata db' u d ↔ _ := credits_iff hs hn
    rw [if_pos rfl, forall_prop_of_true rfl]
    by_cases hm : d.2 ∈ delivered metadata u ds
    case pos =>
      have hd := hx d.2 hm
      rw [Finset.insert_eq_of_mem hm, iff_false_right (not_not.mpr hm), and_iff_right hd]
      constructor
      case mp =>
        intro ⟨_, ht'⟩ hr
        have hi := (hc.mpr ⟨hd, hr⟩).right d.2
        rw [ht' d.2, ht d.2, if_pos rfl] at hi
        omega
      case mpr =>
        intro hr
        rw [deliver_of_not_room hs hd hr]
        exact ⟨hb, ht⟩
    case neg =>
      rw [iff_true_right hm, ← hc, Finset.sum_insert hm, Credits, hb]
      refine and_congr (by rw [add_assoc, add_comm (credited u (metadata d.2))]) ?_
      refine forall_congr' fun id => ?_
      rw [ht id]
      by_cases hi : id = d.2
      case pos => simp [hi, hm]
      case neg => simp [hi]

theorem exact_of_apt (h : ∀ ds' d, ds' ++ [d] <+: ds → Apt metadata db u ds' d)
    (hm : id ∈ delivered metadata u ds) : Exact u (metadata id) := by
  induction ds using List.reverseRecOn
  case nil => simp [delivered] at hm
  case append_singleton ds d ih =>
    have ih := ih fun ds' d' hp => h ds' d' (hp.trans (List.prefix_append ds [d]))
    rw [delivered_append] at hm
    split at hm
    case isFalse => exact ih hm
    case isTrue hn =>
      obtain rfl | hm := Finset.mem_insert.mp hm
      · exact (h ds d (List.prefix_refl _) hn).left
      · exact ih hm

-- A payment intent is credited exactly once as long as all deliveries are apt, and no longer.
theorem exactlyOnce_iff_apt (hs : db.Stored u) :
    (∀ ds', ds' <+: ds → ExactlyOnce metadata db u ds') ↔
      ∀ ds' d, ds' ++ [d] <+: ds → Apt metadata db u ds' d := by
  induction ds using List.reverseRecOn
  case nil =>
    refine iff_of_true (fun ds' hp => ?_) (fun ds' d hp => by simp at hp)
    rw [List.prefix_nil.mp hp]
    simp [ExactlyOnce, delivered]
  case append_singleton ds d ih =>
    have hd : ds <+: ds ++ [d] := List.prefix_append ds [d]
    constructor
    case mp =>
      intro h ds' d' hp
      have ih := ih.mp fun ds' hp => h ds' (hp.trans hd)
      obtain he | hp := List.prefix_concat_iff.mp hp
      · obtain ⟨rfl, hd'⟩ := List.append_inj' he rfl
        cases hd'
        exact (exactlyOnce_append_iff hs (h ds' hd) fun _ => exact_of_apt ih).mp
          (h _ (List.prefix_refl _))
      · exact ih ds' d' hp
    case mpr =>
      intro h ds' hp
      have ha : ∀ ds' d, ds' ++ [d] <+: ds → Apt metadata db u ds' d :=
        fun ds' d hp => h ds' d (hp.trans hd)
      obtain rfl | hp := List.prefix_concat_iff.mp hp
      · exact (exactlyOnce_append_iff hs (ih.mpr ha ds (List.prefix_refl _)) fun _ =>
          exact_of_apt ha).mpr (h ds d (List.prefix_refl _))
      · exact ih.mpr ha ds' hp

end

-- A payment intent of $10 that is redelivered after five seconds.
theorem not_exactlyOnce_redelivered :
    ¬ExactlyOnce (fun _ => ⟨some "00000000-0000-0000-0000-000000000001", some "10.00"⟩)
      ⟨fun _ => some ⟨1, none, none, none⟩, []⟩ 1 [(0, "pi_1"), (5000, "pi_1")] := by
  intro ⟨hb, _⟩
  revert hb
  decide +kernel

-- A payment intent that is delivered once.
theorem exactlyOnce_delivered_once :
    let metadata := fun _ => ⟨some "00000000-0000-0000-0000-000000000001", some "10.00"⟩
    let db : Database := ⟨fun _ => some ⟨1, none, none, none⟩, []⟩
    db.Stored 1 ∧ ∀ ds', ds' <+: [(0, "pi_1")] → ExactlyOnce metadata db 1 ds' := by
  intro metadata db
  have hs : db.Stored 1 := ⟨_, rfl, ⟨1000000, by norm_num⟩, by norm_num⟩
  refine ⟨hs, (exactlyOnce_iff_apt hs).mpr fun ds' d hp _ => ?_⟩
  obtain ⟨rfl, hd⟩ : ds' = [] ∧ d = (0, "pi_1") := by
    cases ds' <;> simp_all
  subst hd
  have hx : Exact 1 (metadata "pi_1") :=
    ⟨⟨false, ⟨1000, -2, by decide⟩⟩, by decide +kernel, by decide, ⟨10000000, by decide +kernel⟩,
      by decide +kernel⟩
  refine ⟨hx, iff_of_true ?_ (by simp [delivered])⟩
  change |(1 : ℚ) + credited 1 (metadata "pi_1")| < 10 ^ 6
  decide +kernel

end Billing
