import AstraGate.Api.Theorems.Billing

open Numeric Python

namespace Billing

theorem mem_hexDigits (h : c ∈ Json.hexDigits count n) : ∃ d < 16, c = Nat.digitChar d := by
  induction count generalizing n
  case zero => cases h
  case succ count ih =>
    obtain h | h := List.mem_append.mp h
    · exact ih h
    · exact ⟨n % 16, Nat.mod_lt n (by decide), List.mem_singleton.mp h⟩

theorem length_hexDigits (count n : ℕ) : (Json.hexDigits count n).length = count := by
  induction count generalizing n
  case zero          => rfl
  case succ count ih => rw [Json.hexDigits, List.length_append, ih, List.length_singleton]

theorem ofDigits_hexDigits {n : ℕ} (h : n < 16 ^ count) :
    ofDigits 16 (Json.hexDigits count n) = n := by
  induction count generalizing n
  case zero => exact (Nat.lt_one_iff.mp h).symm
  case succ count ih =>
    have hd : n / 16 < 16 ^ count := Nat.div_lt_of_lt_mul (by rwa [← Nat.pow_succ'])
    rw [Json.hexDigits, ofDigits_append, ih hd, List.foldl_cons, List.foldl_nil,
      digit?_digitChar (Nat.mod_lt n (by decide)) (by decide)]
    exact Nat.div_add_mod n 16

theorem filter_hyphenate (groups : List ℕ) {digits : List Char} {p : Char → Bool}
    (hh : p '-' = false) (hd : ∀ c ∈ digits, p c) :
    (hyphenate groups digits).filter p = digits := by
  induction groups generalizing digits
  case nil => exact List.filter_eq_self.mpr hd
  case cons n groups ih =>
    have ht : (digits.take n).filter p = digits.take n :=
      List.filter_eq_self.mpr fun c hc => hd c (List.mem_of_mem_take hc)
    have hr : (hyphenate groups (digits.drop n)).filter p = digits.drop n :=
      ih fun c hc => hd c (List.mem_of_mem_drop hc)
    rw [hyphenate, List.filter_append, List.filter_cons_of_neg (by simp [hh]), ht, hr,
      List.take_append_drop]

theorem mem_hyphenate (groups : List ℕ) {digits : List Char} (h : c ∈ hyphenate groups digits) :
    c = '-' ∨ c ∈ digits := by
  induction groups generalizing digits
  case nil => exact .inr h
  case cons n groups ih =>
    obtain h | h := List.mem_append.mp h
    · exact .inr (List.mem_of_mem_take h)
    obtain h | h := List.mem_cons.mp h
    · exact .inl h
    · exact (ih h).imp_right List.mem_of_mem_drop

theorem mem_uuidStr (h : c ∈ (uuidStr userId).toList) :
    c = '-' ∨ ∃ d < 16, c = Nat.digitChar d := by
  rw [uuidStr, String.toList_ofList] at h
  exact (mem_hyphenate _ h).imp_right mem_hexDigits

-- The text of an id is read back.
theorem parseUuid_uuidStr {userId : UUID} (h : userId < 16 ^ 32) :
    parseUuid (uuidStr userId) = some userId := by
  have hd : ∀ c ∈ Json.hexDigits 32 userId, (digit? 16 c).isSome := by
    intro c hc
    have ⟨d, hd, he⟩ := mem_hexDigits hc
    rw [he, digit?_digitChar hd (by decide)]
    rfl
  have hm : ∀ c ∈ (uuidStr userId).toList, c ∉ ['u', '{', '}'] := by
    intro c hc
    obtain rfl | ⟨d, hd, rfl⟩ := mem_uuidStr hc
    · decide
    · clear hc
      revert d
      decide
  have hu : 'u' ∉ (uuidStr userId).toList := fun hc => hm 'u' hc (by decide)
  have hs : stripBy (· ∈ ['{', '}']) (uuidStr userId).toList = (uuidStr userId).toList :=
    stripBy_eq_self fun c hc => decide_eq_false fun h => hm c hc (List.mem_cons_of_mem 'u' h)
  have hf : (uuidStr userId).toList.filter (· ≠ '-') = Json.hexDigits 32 userId := by
    rw [uuidStr, String.toList_ofList]
    refine filter_hyphenate _ (by decide) fun c hc => ?_
    have ha := isAlphanum_of_digit? (hd c hc)
    by_contra hn
    rw [show c = '-' by simpa using hn] at ha
    cases ha
  have hn : Json.hexDigits 32 userId ≠ [] := by
    rw [← List.length_pos_iff, length_hexDigits]
    decide
  have hl : (0 : ℤ) ≤ userId ∧ (userId : ℤ) < 2 ^ 128 := by
    refine ⟨Int.natCast_nonneg userId, ?_⟩
    calc
      _ < ((16 ^ 32 : ℕ) : ℤ) := Int.ofNat_lt.mpr h
      _ = 2 ^ 128             := by norm_num
  rw [parseUuid, remove_eq_self (by decide) hu, remove_eq_self (by decide) hu]
  dsimp only
  rw [hs, hf, if_pos (length_hexDigits 32 userId), int?_eq hd hn, ofDigits_hexDigits h,
    Option.bind_eq_bind, Option.bind_some, if_pos hl, Int.toNat_natCast]

open Database

-- The event for a payment of the session, which carries the session's metadata.
def SessionParams.payment (params : SessionParams) (id : String) : Event :=
  ⟨"payment_intent.succeeded", id, params.paymentIntentData⟩

-- Every session that is opened for the request charges what its payment adds to the balance.
def ChargesCredit (db : Database) (userId : UUID) (body : TopupRequest) : Prop :=
  ∀ isMockStripe uuid4 originHeader params,
    createTopupSession isMockStripe uuid4 originHeader userId body = .checkout params →
    ∀ id now, (params.unitAmount / 100 : ℚ) =
      (stripeWebhook now (params.payment id) db).2.balance userId - db.balance userId

section

variable {db : Database} {userId : UUID} {body : TopupRequest} {id : String} {now : Time}
  {account : CreditAccount} {params : SessionParams} {b : ℚ} {amount : Decimal.Unsigned}
  {cents : ℤ}

theorem nonempty?_some {text : String} (h : text ≠ "") : nonempty? (some text) = some text :=
  Option.filter_eq_some_iff.mpr ⟨rfl, decide_eq_true h⟩

-- The metadata names the user and the amount that was asked for.
theorem amountFor_params (hu : userId < 16 ^ 32)
    (hp : checkoutParams origin userId body = some params) :
    params.paymentIntentData.amountFor userId = some (.finite ⟨false, body.amount⟩) := by
  obtain ⟨_, _, hp⟩ := Option.bind_eq_some_iff.mp hp
  cases hp
  have hi := parseUuid_uuidStr hu
  have hd := body.amount.parse_str
  have hi' : uuidStr userId ≠ "" := by
    intro he
    rw [he] at hi
    cases (show parseUuid "" = none by decide).symm.trans hi
  have hd' : body.amount.str ≠ "" := by
    intro he
    rw [he] at hd
    cases (show Decimal.parse "" = none by decide).symm.trans hd
  rw [amountFor_eq_some_iff, Metadata.credit?, nonempty?_some hi', nonempty?_some hd']
  simp [hi, hd]

-- The webhook adds the amount that was asked for, unless the columns do not take it.
theorem payment_balance (now : Time) (id : String) (hu : userId < 16 ^ 32)
    (ha : db.creditAccounts userId = some account)
    (hp : checkoutParams origin userId body = some params) :
    let db' := (stripeWebhook now (params.payment id) db).2
    let sum := Decimal.inContext 28 (account.balanceUsd + body.amount.value)
    (Accepts account ⟨false, body.amount⟩ → db'.balance userId = Numeric.quantize 6 sum) ∧
      (¬Accepts account ⟨false, body.amount⟩ → db'.balance userId = account.balanceUsd) := by
  have hn := amountFor_params hu hp
  constructor
  case left =>
    intro hq
    have ⟨⟨new, hs, hb⟩, _⟩ :=
      @deliver_of_accepts (fun _ => params.paymentIntentData) _ _ (now, id) _ _ hn ha hq
    exact (balance_of_some hs).trans hb
  case right =>
    intro hq
    have hr := @deliver_of_refuses (fun _ => params.paymentIntentData) _ _ _ (now, id) _ hn ha
      fun q he => by cases he; exact hq
    exact (congrArg (balance · userId) hr).trans (balance_of_some ha)

-- A payment of whole cents, and of less behind them than the column keeps.
structure Charges (b : ℚ) (amount : Decimal.Unsigned) (cents : ℤ) : Prop where
  scale : -maxScale ≤ amount.exponent
  least : cents ≤ Decimal.inContext 28 (amount.value * 100)
  most  : cents < 10 ^ 8
  sum   : |b + cents / 100| < 10 ^ 6
  rest  : Absorbs 6 (b + cents / 100)
    (Decimal.inContext 28 (b + amount.value) - (b + cents / 100))

theorem truncate_eq_iff {q : ℚ} (hq : 0 ≤ q) :
    Decimal.truncate q = cents ↔ cents ≤ q ∧ q < cents + 1 := by
  rw [← Int.floor_eq_iff, Decimal.truncate, Int.tdiv_eq_ediv_of_nonneg (Rat.num_nonneg.mpr hq),
    Rat.floor_def']

theorem fits_add_cents (hb : Fits 6 b) (cents : ℤ) : Fits 6 (b + cents / 100) := by
  have hc : Fits 2 (cents / 100 : ℚ) := ⟨cents, by norm_num⟩
  exact hb.add (hc.of_le (by decide))

theorem quantize_eq_iff_absorbs (hb : Fits 6 b) {s : ℚ} :
    quantize 6 s = b + cents / 100 ↔ Absorbs 6 (b + cents / 100) (s - (b + cents / 100)) := by
  rw [← quantize_add_eq_iff (fits_add_cents hb cents), add_sub_cancel]

theorem abs_inContext_sub_le (q : ℚ) : |Decimal.inContext 28 q - q| ≤ |q| / 10 ^ 27 := by
  have hq := abs_nonneg q
  have he : (10 : ℚ) ^ (1 - (28 : ℕ) : ℤ) / 2 ≤ 1 / 10 ^ 27 := by norm_num
  calc
    _ ≤ |q| * (10 ^ (1 - (28 : ℕ) : ℤ) / 2) := Decimal.abs_inContext_sub_le 28 q
    _ ≤ |q| * (1 / 10 ^ 27)                 := mul_le_mul_of_nonneg_left he hq
    _ = |q| / 10 ^ 27                       := by ring

theorem inContext_bounds {q : ℚ} (hq : 0 ≤ q) :
    q - q / 10 ^ 27 ≤ Decimal.inContext 28 q ∧ Decimal.inContext 28 q ≤ q + q / 10 ^ 27 := by
  have ⟨hl, hu⟩ := abs_le.mp (abs_inContext_sub_le q)
  rw [abs_of_nonneg hq] at hl hu
  constructor <;> linarith

theorem inContext_nonneg {q : ℚ} (hq : 0 ≤ q) : 0 ≤ Decimal.inContext 28 q := by
  have ⟨hl, _⟩ := inContext_bounds hq
  have hd : q / 10 ^ 27 ≤ q := div_le_self hq (by norm_num)
  linarith

theorem charges_of_accepts (hb : Fits 6 account.balanceUsd) (hq : 5 ≤ amount.value)
    (ha : Accepts account ⟨false, amount⟩)
    (hc : Decimal.truncate (Decimal.inContext 28 (amount.value * 100)) = cents)
    (hs : quantize 6 (Decimal.inContext 28 (account.balanceUsd + amount.value)) =
      account.balanceUsd + cents / 100) :
    Charges account.balanceUsd amount cents := by
  have hn : 0 ≤ amount.value * 100 := by linarith
  have ⟨hle, _⟩ := (truncate_eq_iff (inContext_nonneg hn)).mp hc
  have hlt : amount.value < 10 ^ 6 - 1 / 2 / 10 ^ 6 := by
    by_contra hge
    have hv : quantize 6 (10 ^ 6 - 1 / 2 / 10 ^ 6 : ℚ) = 10 ^ 6 := by decide +kernel
    have hm : quantize 6 (10 ^ 6 - 1 / 2 / 10 ^ 6) ≤ quantize 6 amount.value :=
      quantize_mono (not_lt.mp hge)
    exact (le_abs_self _).not_gt (ha.amount.trans_le (hv ▸ hm))
  have ⟨_, hu⟩ := inContext_bounds hn
  exact {
    scale := ha.scale
    least := hle
    most  := by
      have : (cents : ℚ) < 10 ^ 8 := by linarith
      exact_mod_cast this
    sum   := hs ▸ ha.sum
    rest  := (quantize_eq_iff_absorbs hb).mp hs }

theorem Charges.quantize_eq (h : Charges b amount cents) (hb : Fits 6 b) :
    quantize 6 (Decimal.inContext 28 (b + amount.value)) = b + cents / 100 :=
  (quantize_eq_iff_absorbs hb).mpr h.rest

-- The amount is off the cents by the rounding of the column and by that of the context.
theorem Charges.near (h : Charges b amount cents) : |amount.value - cents / 100| < 1 / 10 ^ 6 := by
  have hr := h.rest.abs_le
  have hc := abs_inContext_sub_le (b + amount.value)
  generalize Decimal.inContext 28 (b + amount.value) = s at hr hc
  have hs : |s| ≤ 10 ^ 6 + 1 := by
    have hh : halfUnit (K := ℚ) 6 ≤ 1 := by norm_num [halfUnit]
    linarith [abs_sub_abs_le_abs_sub s (b + cents / 100), h.sum]
  have hb : |b + amount.value| ≤ 10 ^ 7 := by
    linarith [abs_sub_abs_le_abs_sub (b + amount.value) s, abs_sub_comm s (b + amount.value)]
  have ht : |amount.value - cents / 100| ≤
      |s - (b + cents / 100)| + |s - (b + amount.value)| := by
    have he : amount.value - cents / 100 = s - (b + cents / 100) - (s - (b + amount.value)) := by
      ring
    rw [he]
    exact abs_sub _ _
  norm_num [halfUnit] at hr
  linarith

theorem Charges.accepts (h : Charges account.balanceUsd amount cents)
    (hb : Fits 6 account.balanceUsd) (hq : 5 ≤ amount.value) :
    Accepts account ⟨false, amount⟩ ∧
      Decimal.truncate (Decimal.inContext 28 (amount.value * 100)) = cents := by
  have ⟨hl, hu⟩ := abs_lt.mp h.near
  have hc : (cents : ℚ) + 1 ≤ 10 ^ 8 := by exact_mod_cast h.most
  have hn : 0 ≤ amount.value * 100 := by linarith
  have ⟨_, hu'⟩ := inContext_bounds hn
  have hv : |amount.value| ≤ 10 ^ 6 - 1 / 10 ^ 3 := by
    rw [abs_of_nonneg (by linarith)]
    linarith
  constructor
  case left =>
    have hf : Fits 6 (10 ^ 6 - 1 / 10 ^ 3 : ℚ) := ⟨999999999000, by norm_num⟩
    have hf' : Fits 2 (10 ^ 6 : ℚ) := ⟨10 ^ 8, by norm_num⟩
    have hm : |amount.value| ≤ 10 ^ 6 := by linarith
    exact {
      scale  := h.scale
      sum    := (congrArg abs (h.quantize_eq hb)).trans_lt h.sum
      last   := (abs_quantize_le hf' hm).trans_lt (by norm_num)
      amount := (abs_quantize_le hf hv).trans_lt (by norm_num) }
  case right =>
    refine (truncate_eq_iff (inContext_nonneg hn)).mpr ⟨h.least, ?_⟩
    linarith

theorem checkoutParams_of_session {origin : Option String}
    (h : createTopupSession isMockStripe uuid4 origin userId body = .checkout params) :
    ∃ origin, checkoutParams origin userId body = some params := by
  refine ⟨nonempty? origin |>.getD "http://localhost:3000", ?_⟩
  cases isMockStripe
  case true => cases h
  case false =>
    simp only [createTopupSession, Bool.false_eq_true, if_false] at h
    cases hp : checkoutParams (nonempty? origin |>.getD "http://localhost:3000") userId body <;>
      rw [hp] at h <;> cases h
    rfl

theorem session_of_params (h : checkoutParams "http://localhost:3000" userId body = some params) :
    createTopupSession false 0 none userId body = .checkout params :=
  congrArg (Option.elim · TopupSession.failed .checkout) h

theorem unitAmount_params (h : checkoutParams origin userId body = some params) :
    params.unitAmount =
      Decimal.truncate (Decimal.inContext 28 (body.amount.value * 100)) := by
  have ⟨paid, hp, hc⟩ := Option.bind_eq_some_iff.mp h
  cases hc
  have hp := Option.some.inj (Option.ite_none_right_eq_some.mp hp).right
  exact congrArg Decimal.truncate hp.symm

-- What is charged is added just if there are cents of this kind.
theorem payment_charges_iff (hu : userId < 16 ^ 32)
    (ha : db.creditAccounts userId = some account) (hb : Fits 6 account.balanceUsd)
    (hp : checkoutParams origin userId body = some params) :
    (params.unitAmount / 100 : ℚ) =
        (stripeWebhook now (params.payment id) db).2.balance userId - db.balance userId ↔
      ∃ cents, Charges account.balanceUsd body.amount cents := by
  have ⟨hy, hn⟩ := payment_balance now id hu ha hp
  rw [balance_of_some ha, eq_sub_iff_add_eq', unitAmount_params hp]
  by_cases hq : Accepts account ⟨false, body.amount⟩
  case pos =>
    rw [hy hq, eq_comm]
    constructor
    case mp  => exact fun hs => ⟨_, charges_of_accepts hb body.ge hq rfl hs⟩
    case mpr =>
      intro ⟨cents, hc⟩
      rw [(hc.accepts hb body.ge).right]
      exact hc.quantize_eq hb
  case neg =>
    have hc := (inContext_bounds (q := body.amount.value * 100) (by linarith [body.ge])).left
    refine iff_of_false (fun hs => ?_) (fun ⟨cents, hc⟩ => hq (hc.accepts hb body.ge).left)
    rw [hn hq, add_eq_left, div_eq_zero_iff, or_iff_left (by norm_num)] at hs
    have hl := body.ge
    have ht := ((truncate_eq_iff (by linarith)).mp (Int.cast_eq_zero.mp hs)).right
    norm_num at ht
    linarith

-- A session charges what its payment adds to the balance exactly if it charges whole cents that the
-- columns take, up to what is rounded away. No session is opened if the arithmetic overflows.
theorem chargesCredit_iff_charges (hu : userId < 16 ^ 32)
    (ha : db.creditAccounts userId = some account) (hb : Fits 6 account.balanceUsd) :
    ChargesCredit db userId body ↔ Decimal.operate 28 (body.amount.value * 100) = none ∨
      ∃ cents, Charges account.balanceUsd body.amount cents := by
  constructor
  case mp =>
    intro h
    refine or_iff_not_imp_left.mpr fun ho => ?_
    have ⟨paid, hp⟩ := Option.ne_none_iff_exists'.mp ho
    have hc : ∃ params, checkoutParams "http://localhost:3000" userId body = some params := by
      rw [checkoutParams, hp]
      exact ⟨_, rfl⟩
    have ⟨params, hc⟩ := hc
    exact (payment_charges_iff hu ha hb hc).mp (h false 0 none params (session_of_params hc) "" 0)
  case mpr =>
    intro h isMockStripe uuid4 originHeader params hs id now
    have ⟨origin, hp⟩ := checkoutParams_of_session hs
    refine (payment_charges_iff hu ha hb hp).mpr (h.resolve_left fun ho => ?_)
    rw [checkoutParams, ho] at hp
    cases hp

end

-- A request for $5.005 is charged with 500 cents, and credited with $5.005.
theorem not_chargesCredit_half_cent :
    ¬ChargesCredit ⟨fun _ => some ⟨0, none, none, none⟩, []⟩ 1
      ⟨⟨5005, -3, by decide⟩, by decide +kernel⟩ := by
  intro h
  have hp : (checkoutParams "http://localhost:3000" 1
      ⟨⟨5005, -3, by decide⟩, by decide +kernel⟩).isSome := by
    decide +kernel
  have ⟨params, hp⟩ := Option.isSome_iff_exists.mp hp
  have hb : Fits 6 (0 : ℚ) := ⟨0, by norm_num⟩
  have ⟨cents, hc⟩ := (payment_charges_iff (by decide) rfl hb hp).mp
    (h false 0 none params (session_of_params hp) "pi_1" 0)
  have hq := hc.quantize_eq hb
  rw [show quantize 6 _ = (1001 / 200 : ℚ) by decide +kernel] at hq
  have hz : (cents : ℚ) * 2 = 1001 := by linarith
  have hz : cents * 2 = 1001 := by exact_mod_cast hz
  omega

theorem chargesCredit_ten_dollars :
    ChargesCredit ⟨fun _ => some ⟨0, none, none, none⟩, []⟩ 1
      ⟨⟨1000, -2, by decide⟩, by decide +kernel⟩ :=
  (chargesCredit_iff_charges (by decide) rfl ⟨0, by norm_num⟩).mpr <| .inr ⟨1000, {
    scale := by decide
    least := by decide +kernel
    most  := by decide
    sum   := by norm_num
    rest  := .inl (by decide +kernel) }⟩

end Billing
