/-
  Momento.Service.Amounts

  **WHAT AN EVENT IS WORTH, TWICE.**  The collector reads an amount out of an
  event's properties in Go (`eventRevenue`, `activeEngagementMilliseconds`); a
  rebuild reads it out of the stored document in SQL (`RevenueAmountSQL`, the
  guarded cast in `rebuildSessionsSQL`).  Both pairs stand here side by side.

  After `json.Unmarshal` a number is a `float64`, so of the Go type switches'
  cases only `float64` and `string` can be met.
-/
import Momento.Model.Database

namespace Momento

open Foundation

/-! ## §1. Go. -/

theorem zero_lt_two_pow : 0 < 2 ^ 53 := by norm_num

/-- The float zero. -/
def zeroFloat : Binary64 := .fin (Binary64.ofNat 0 zero_lt_two_pow)

/-- One key of `eventRevenue`: a number is taken, a text only if it parses. -/
def revenueReading : Option Json → Option Binary64
  | some (.num x) => some (.fin x)
  | some (.str s) => if (parseFloat s).2 then some (parseFloat s).1 else none
  | _ => none

/-- `eventRevenue`: the first of `value` and `revenue` that reads as a number. -/
def eventRevenue (event : IncomingEvent) : Binary64 :=
  if event.name ≠ "purchase" then zeroFloat
  else
    ((revenueReading (propertyOf event.properties "value")).or
      (revenueReading (propertyOf event.properties "revenue"))).getD zeroFloat

/-- The seconds `activeEngagementMilliseconds` reads; the error of `ParseFloat`
is dropped there. -/
def secondsReading : Option Json → Binary64
  | some (.num x) => .fin x
  | some (.str s) => (parseFloat s).1
  | _ => zeroFloat

/-- `int64(min(seconds, 3600) * 1000)`, nothing for negative seconds. -/
def millisecondsOf (int64OfNaN : Int) : Binary64 → Int
  | .nan => int64OfNaN
  | .inf negative => if negative then 0 else 3600000
  | .fin x =>
    if x.value < 0 then 0
    else ⌊Binary64.nearest ((if 3600 < x.value then 3600 else x.value) * 1000)⌋

/-- `activeEngagementMilliseconds`. -/
def activeEngagementMilliseconds (env : Platform) (event : IncomingEvent) : Int :=
  if event.name ≠ "user_engagement" then 0
  else millisecondsOf env.int64OfNaN (secondsReading (propertyOf event.properties "active_seconds"))

/-- `isInteractionEvent`. -/
def isInteractionEvent (name : String) : Bool :=
  name ∈ ["click", "outbound_click", "file_download", "search", "login", "sign_up",
    "form_start", "form_submit", "conversion", "purchase", "add_to_cart", "begin_checkout",
    "error"]

/-- A `float64` sent to a `numeric` parameter: its shortest decimal. -/
def numericOf : Binary64 → Option Numeric
  | .nan => some .nan
  | .inf _ => none
  | .fin x => some (.fin (Binary64.shortest x.value))

/-- Storing into `numeric(24,6)`: six decimals kept, eighteen digits before
them. -/
def storeNumeric24_6 : Numeric → Except DbError Numeric
  | .nan => .ok .nan
  | .fin q =>
    if |roundToScale 6 q| < 10 ^ 18 then .ok (.fin (roundToScale 6 q)) else .error .numericOverflow

/-- The value `excluded.revenue` holds. -/
def excludedRevenue (f : Binary64) : Except DbError Numeric :=
  match numericOf f with
  | none => .error .numericOverflow
  | some n => storeNumeric24_6 n

/-! ## §2. SQL. -/

/-- `properties ->> key` where the text matches `^-?[0-9]+(\.[0-9]+)?$`, cast.
A number is stored as its shortest decimal and printed without exponent. -/
def signedNumericText : Option Json → Option ℚ
  | some (.num x) => some (Binary64.shortest x.value)
  | some (.str s) => signedPlainDecimal s.toList
  | _ => none

/-- `properties ->> key` where the text matches `^[0-9]+(\.[0-9]+)?$`, cast. -/
def numericText : Option Json → Option ℚ
  | some (.num x) => if 0 ≤ x.value then some (Binary64.shortest x.value) else none
  | some (.str s) => plainDecimal s.toList
  | _ => none

/-- `coalesce(properties->>'value', properties->>'revenue')`: a JSON null is an
SQL null. -/
def amountProperty (p : Properties) : Option Json :=
  match p.get "value" with
  | none => p.get "revenue"
  | some .null => p.get "revenue"
  | some v => some v

/-- The cast to `numeric` has room for the text; a number that was a double
always fits. -/
def CastFits : Option Json → Prop
  | some (.str s) => withinNumeric s.toList = true
  | _ => True

instance : DecidablePred CastFits := fun v =>
  match v with
  | some (.str s) => inferInstanceAs (Decidable (withinNumeric s.toList = true))
  | none | some .null | some (.bool _) | some (.num _) | some (.arr _) | some (.obj _)
  | some (.strs _) => instDecidableTrue

/-- The text behind the guard of `RevenueAmountSQL`, cast; the statement fails
where the cast has no room. -/
def guardedAmount (amount : Option Json) : Except DbError ℚ :=
  match signedNumericText amount with
  | none => .ok 0
  | some d => if CastFits amount then .ok d else .error .numericFormat

/-- The summand of `RevenueAmountSQL`. -/
def revenueAmountSql (r : RawEvent) : Except DbError ℚ :=
  if r.eventName = "purchase" then guardedAmount (amountProperty r.properties) else .ok 0

/-- The summand of `active_engagement_ms` in `rebuildSessionsSQL`. -/
def activeMillisecondsSql (r : RawEvent) : ℚ :=
  if r.eventName = "user_engagement" then
    (numericText (r.properties.get "active_seconds")).elim 0 (fun d => min (d * 1000) 3600000)
  else 0

/-! ## §3. The bound on one event. -/

/-- **Every reading but NaN is worth between nothing and an hour.** -/
theorem millisecondsOf_bounds (n : Int) {f : Binary64} (h : f ≠ .nan) :
    0 ≤ millisecondsOf n f ∧ millisecondsOf n f ≤ 3600000 := by
  cases f with
  | nan => exact absurd rfl h
  | inf negative => cases negative <;> simp [millisecondsOf]
  | fin x =>
    by_cases hneg : x.value < 0
    · simp [millisecondsOf, hneg]
    have hcap : ∃ s : ℚ, 0 ≤ s ∧ s ≤ 3600 ∧ (if 3600 < x.value then 3600 else x.value) = s := by
      by_cases hbig : 3600 < x.value
      · exact ⟨3600, by norm_num, le_rfl, if_pos hbig⟩
      · exact ⟨x.value, not_lt.mp hneg, not_lt.mp hbig, if_neg hbig⟩
    obtain ⟨s, hs0, hs1, hs⟩ := hcap
    have hprod : 0 ≤ s * 1000 := by linarith
    have hnear : Binary64.nearest (s * 1000) = Binary64.nearestPos (s * 1000) := by
      simp [Binary64.nearest, hprod.not_gt]
    have hle : Binary64.nearestPos (s * 1000) ≤ (3600000 : ℕ) :=
      Binary64.nearestPos_le hprod (by push_cast; linarith) (by norm_num)
    have hge := Binary64.nearestPos_nonneg hprod
    simp only [millisecondsOf, hneg, if_false, hs, hnear]
    constructor
    · exact Int.floor_nonneg.mpr hge
    · have hfloor := Int.floor_le (Binary64.nearestPos (s * 1000))
      have hint : ((⌊Binary64.nearestPos (s * 1000)⌋ : ℤ) : ℚ) ≤ ((3600000 : ℤ) : ℚ) := by
        push_cast at hle ⊢
        linarith
      exact_mod_cast hint

end Momento
