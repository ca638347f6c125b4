import MarketReplay.Proofs.ReadBack
import MarketReplay.Proofs.Records.Rearranged

/-!
# Records read back

What is written for a record can be read back. A value is storable if its numbers are finite and
its whole numbers lie within the ranges of their fields (`Bar.Storable` and the like); nothing else
is asked of it, so that open and closed trades, set and unset gaps and empty lists are all included.

**`records_faithful`: every storable value of the eleven records is read back as it was**, and the
order in which members stand makes no difference to any reading. Both are about values; how a text
spells them is a matter of `MarketReplay.Json.Reader` and `MarketReplay.Json.Printer`.

The proofs go through a reader field by field (`Json.fields_then`, `Json.Fields.required_then`): the
field is found in the members written, its value is read back, and the rest of the reader goes on
with it.
-/

set_option autoImplicit false

namespace MarketReplay

/-! ## Single values

Numbers and lists of them. A number that is not finite is written as null, which is why storable
values have none. -/

namespace Json

variable {α β γ : Type}

theorem int64?_int {n : Int} (h : n ∈ IntRange.signed 64) : int64? (α := α) (.int n) = some n :=
  if_pos h

theorem nat64?_ofNat {n : Nat} (h : (n : Int) ∈ IntRange.unsigned 64) :
    nat64? (α := α) (ofNat n) = some n := by
  have hread : intWithin? (α := α) (.unsigned 64) (ofNat n) = some (n : Int) := if_pos h
  rw [nat64?, hread]
  rfl

theorem nat32?_ofNat {n : Nat} (h : (n : Int) ∈ IntRange.unsigned 32) :
    nat32? (α := α) (ofNat n) = some n := by
  have hread : intWithin? (α := α) (.unsigned 32) (ofNat n) = some (n : Int) := if_pos h
  rw [nat32?, hread]
  rfl

theorem optionalInt {written : Option Int} (h : ∀ n, written = some n → n ∈ IntRange.signed 64) :
    ∀ n, written = some n → Json.int (α := α) n ≠ .null ∧ int64? (α := α) (.int n) = some n :=
  fun n hn => ⟨nofun, int64?_int (h n hn)⟩

theorem scalar?_ofScalar [Scalar α] {x : α} (h : Scalar.isFinite x = true) :
    scalar? (ofScalar x) = some x := by
  rw [ofScalar, if_pos h]
  rfl

theorem list?_map {decode : Json α → Option β} {encode : β → Json α} {xs : List β}
    (h : ∀ x ∈ xs, decode (encode x) = some x) :
    list? decode (.list (xs.map encode)) = some xs :=
  mapM_map_eq_some h

theorem orNull?_of_ne_null {decode : Json α → Option β} {j : Json α} (h : j ≠ .null) :
    orNull? decode j = (decode j).map some := by
  cases j <;> first | rfl | exact absurd rfl h

theorem ofScalar_ne_null [Scalar α] {x : α} (h : Scalar.isFinite x = true) :
    ofScalar x ≠ .null := by
  rw [ofScalar, if_pos h]
  exact nofun

theorem optionalScalar [Scalar α] {written : Option α}
    (h : ∀ x, written = some x → Scalar.isFinite x = true) :
    ∀ x, written = some x → ofScalar x ≠ .null ∧ scalar? (ofScalar x) = some x :=
  fun x hx => ⟨ofScalar_ne_null (h x hx), scalar?_ofScalar (h x hx)⟩

/-! ## Reading on

The steps of a reader. Each lemma is about a field that is there, and continues with the rest of the
reader, so that a record is gone through by one lemma per field. -/

theorem fields_then {count : Nat} {j : Json α} {f : Fields α} {read : Fields α → Option γ}
    {result : Option γ} (hfields : fields? count j = some f) (hread : read f = result) :
    (fields? count j >>= read) = result := by
  rw [hfields]
  exact hread

namespace Fields

variable {f : Fields α} {place : Nat} {name : String} {decode : Json α → Option β} {j : Json α}
  {x : β} {result : Option γ}

theorem required_then {rest : β → Option γ} (hfind : f.find? place name = some (some j))
    (hdecode : decode j = some x) (hrest : rest x = result) :
    (f.required place name decode >>= rest) = result := by
  have hread : f.required place name decode = some x := by
    rw [required, hfind]
    exact hdecode
  rw [hread]
  exact hrest

theorem withDefault_then {rest : β → Option γ} {value : β}
    (hfind : f.find? place name = some (some j)) (hdecode : decode j = some x)
    (hrest : rest x = result) :
    (f.withDefault place name decode value >>= rest) = result := by
  have hread : f.withDefault place name decode value = some x := by
    rw [withDefault, hfind]
    exact hdecode
  rw [hread]
  exact hrest

/-- An optional field, written or left out. What is written must not be null, since null counts as
left out. -/
theorem optional_then {members : List (String × Json α)} {rest : Option β → Option γ}
    {encode : β → Json α} {written : Option β}
    (hfind : (named members).find? place name = some (written.map encode))
    (hdecode : ∀ x, written = some x → encode x ≠ .null ∧ decode (encode x) = some x)
    (hrest : rest written = result) :
    ((named members).optional place name decode >>= rest) = result := by
  have hread : (named members).optional place name decode = some written := by
    rw [optional, withDefault, hfind]
    cases written with
    | none => rfl
    | some x =>
      obtain ⟨hne, hx⟩ := hdecode x rfl
      show orNull? decode (encode x) = some (some x)
      rw [orNull?_of_ne_null hne, hx]
      rfl
  rw [hread]
  exact hrest

end Fields

/-- What is written for storable values is read back, in every order of members, and the order makes
no difference to other values either. The first is about what is written and the second about the
reader alone; together they give every rearranged text of a value. -/
structure Faithful (storable : β → Prop) (encode : β → Json α) (decode : Json α → Option β) :
    Prop where
  read_written : ∀ x, storable x → decode (encode x) = some x
  orderFree : OrderFree decode

theorem Faithful.read_rearranged {storable : β → Prop} {encode : β → Json α}
    {decode : Json α → Option β} (h : Faithful storable encode decode) {x : β} (hx : storable x)
    {j : Json α} (hj : Rearranged (encode x) j) : decode j = some x :=
  (h.orderFree hj).symm.trans (h.read_written x hx)

end Json

/-! ## Names

Cases without data are written as their names. -/

section names

variable {α : Type}

theorem Quality.ofJson?_toJson (q : Quality) : Quality.ofJson? (α := α) q.toJson = some q := by
  cases q <;> rfl

theorem Action.ofJson?_toJson (a : Action) : Action.ofJson? (α := α) a.toJson = some a := by
  cases a <;> rfl

theorem Side.ofJson?_toJson (s : Side) : Side.ofJson? (α := α) s.toJson = some s := by
  cases s <;> rfl

end names

/-! ## Market

For each record what makes it storable, field by field, and that it is read back. -/

open Json (Faithful fields_then int64?_int nat64?_ofNat nat32?_ofNat scalar?_ofScalar
  list?_map)
open Json.Fields (required_then withDefault_then optional_then)

section market

variable {α : Type}

structure Signal.Storable (s : Signal) : Prop where
  timestamp : s.timestamp ∈ IntRange.signed 64

theorem Signal.faithful :
    Faithful Signal.Storable (Signal.toJson (α := α)) Signal.ofJson? where
  orderFree := Signal.orderFree_ofJson?
  read_written := by
    intro s h
    refine fields_then rfl ?_
    refine required_then rfl (int64?_int h.timestamp) ?_
    refine required_then rfl (Action.ofJson?_toJson s.action) ?_
    rfl

variable [Scalar α]

structure Bar.Storable (b : Bar α) : Prop where
  timestamp : b.timestamp ∈ IntRange.signed 64
  opening : Scalar.isFinite b.opening = true
  high : Scalar.isFinite b.high = true
  low : Scalar.isFinite b.low = true
  closing : Scalar.isFinite b.closing = true
  volume : Scalar.isFinite b.volume = true
  quoteVolume : Scalar.isFinite b.quoteVolume = true
  tradeCount : (b.tradeCount : Int) ∈ IntRange.unsigned 64

theorem Bar.faithful : Faithful Bar.Storable (Bar.toJson (α := α)) Bar.ofJson? where
  orderFree := Bar.orderFree_ofJson?
  read_written := by
    intro b h
    refine fields_then rfl ?_
    refine required_then rfl (int64?_int h.timestamp) ?_
    refine required_then rfl (scalar?_ofScalar h.opening) ?_
    refine required_then rfl (scalar?_ofScalar h.high) ?_
    refine required_then rfl (scalar?_ofScalar h.low) ?_
    refine required_then rfl (scalar?_ofScalar h.closing) ?_
    refine required_then rfl (scalar?_ofScalar h.volume) ?_
    refine withDefault_then rfl (scalar?_ofScalar h.quoteVolume) ?_
    refine withDefault_then rfl (nat64?_ofNat h.tradeCount) ?_
    refine withDefault_then rfl (Quality.ofJson?_toJson b.quality) ?_
    rfl

structure Position.Storable (p : Position α) : Prop where
  entryPrice : Scalar.isFinite p.entryPrice = true
  quantity : Scalar.isFinite p.quantity = true
  entryTimestamp : p.entryTimestamp ∈ IntRange.signed 64
  entryCommission : Scalar.isFinite p.entryCommission = true

theorem Position.faithful :
    Faithful Position.Storable (Position.toJson (α := α)) Position.ofJson? where
  orderFree := Position.orderFree_ofJson?
  read_written := by
    intro p h
    refine fields_then rfl ?_
    refine required_then rfl (scalar?_ofScalar h.entryPrice) ?_
    refine required_then rfl (scalar?_ofScalar h.quantity) ?_
    refine required_then rfl (int64?_int h.entryTimestamp) ?_
    refine required_then rfl (scalar?_ofScalar h.entryCommission) ?_
    rfl

structure Trade.Storable (t : Trade α) : Prop where
  entryTimestamp : t.entryTimestamp ∈ IntRange.signed 64
  exitTimestamp : ∀ exit, t.exitTimestamp = some exit → exit ∈ IntRange.signed 64
  entryPrice : Scalar.isFinite t.entryPrice = true
  exitPrice : ∀ price, t.exitPrice = some price → Scalar.isFinite price = true
  quantity : Scalar.isFinite t.quantity = true
  commissionPaid : Scalar.isFinite t.commissionPaid = true
  realizedPnl : Scalar.isFinite t.realizedPnl = true

theorem Trade.faithful : Faithful Trade.Storable (Trade.toJson (α := α)) Trade.ofJson? where
  orderFree := Trade.orderFree_ofJson?
  read_written := by
    rintro ⟨entry, exitTimestamp, side, entryPrice, exitPrice, quantity, commission, pnl⟩ h
    -- the exits decide which members are written; what is found in them is the same each time
    cases exitTimestamp <;> cases exitPrice <;>
    · refine fields_then rfl ?_
      refine required_then rfl (int64?_int h.entryTimestamp) ?_
      refine optional_then rfl (Json.optionalInt h.exitTimestamp) ?_
      refine required_then rfl (Side.ofJson?_toJson side) ?_
      refine required_then rfl (scalar?_ofScalar h.entryPrice) ?_
      refine optional_then rfl (Json.optionalScalar h.exitPrice) ?_
      refine required_then rfl (scalar?_ofScalar h.quantity) ?_
      refine required_then rfl (scalar?_ofScalar h.commissionPaid) ?_
      refine required_then rfl (scalar?_ofScalar h.realizedPnl) ?_
      rfl

end market

/-! ## Results

The longer records, with lists of others in them. -/

section results

variable {α : Type} [Scalar α]

structure EquityPoint.Storable (p : EquityPoint α) : Prop where
  timestamp : p.timestamp ∈ IntRange.signed 64
  equity : Scalar.isFinite p.equity = true
  drawdown : Scalar.isFinite p.drawdown = true

theorem EquityPoint.faithful :
    Faithful EquityPoint.Storable (EquityPoint.toJson (α := α)) EquityPoint.ofJson? where
  orderFree := EquityPoint.orderFree_ofJson?
  read_written := by
    intro p h
    refine fields_then rfl ?_
    refine required_then rfl (int64?_int h.timestamp) ?_
    refine required_then rfl (scalar?_ofScalar h.equity) ?_
    refine required_then rfl (scalar?_ofScalar h.drawdown) ?_
    rfl

structure Metrics.Storable (m : Metrics α) : Prop where
  cumulativeReturn : Scalar.isFinite m.cumulativeReturn = true
  annualizedReturn : Scalar.isFinite m.annualizedReturn = true
  periodsPerYear : Scalar.isFinite m.periodsPerYear = true
  maxDrawdown : Scalar.isFinite m.maxDrawdown = true
  volatility : Scalar.isFinite m.volatility = true
  downsideDeviation : Scalar.isFinite m.downsideDeviation = true
  sharpeRatio : Scalar.isFinite m.sharpeRatio = true
  sortinoRatio : Scalar.isFinite m.sortinoRatio = true
  calmarRatio : Scalar.isFinite m.calmarRatio = true
  totalTrades : (m.totalTrades : Int) ∈ IntRange.unsigned 32
  winningTrades : (m.winningTrades : Int) ∈ IntRange.unsigned 32
  losingTrades : (m.losingTrades : Int) ∈ IntRange.unsigned 32
  winRate : Scalar.isFinite m.winRate = true
  profitLossRatio : Scalar.isFinite m.profitLossRatio = true
  maxConsecutiveWins : (m.maxConsecutiveWins : Int) ∈ IntRange.unsigned 32
  maxConsecutiveLosses : (m.maxConsecutiveLosses : Int) ∈ IntRange.unsigned 32
  averageHolding : Scalar.isFinite m.averageHolding = true
  tradesPerYear : Scalar.isFinite m.tradesPerYear = true

theorem Metrics.faithful :
    Faithful Metrics.Storable (Metrics.toJson (α := α)) Metrics.ofJson? where
  orderFree := Metrics.orderFree_ofJson?
  read_written := by
    intro m h
    refine fields_then rfl ?_
    refine required_then rfl (scalar?_ofScalar h.cumulativeReturn) ?_
    refine required_then rfl (scalar?_ofScalar h.annualizedReturn) ?_
    refine required_then rfl (scalar?_ofScalar h.periodsPerYear) ?_
    refine required_then rfl (scalar?_ofScalar h.maxDrawdown) ?_
    refine required_then rfl (scalar?_ofScalar h.volatility) ?_
    refine required_then rfl (scalar?_ofScalar h.downsideDeviation) ?_
    refine required_then rfl (scalar?_ofScalar h.sharpeRatio) ?_
    refine required_then rfl (scalar?_ofScalar h.sortinoRatio) ?_
    refine required_then rfl (scalar?_ofScalar h.calmarRatio) ?_
    refine required_then rfl (nat32?_ofNat h.totalTrades) ?_
    refine required_then rfl (nat32?_ofNat h.winningTrades) ?_
    refine required_then rfl (nat32?_ofNat h.losingTrades) ?_
    refine required_then rfl (scalar?_ofScalar h.winRate) ?_
    refine required_then rfl (scalar?_ofScalar h.profitLossRatio) ?_
    refine required_then rfl (nat32?_ofNat h.maxConsecutiveWins) ?_
    refine required_then rfl (nat32?_ofNat h.maxConsecutiveLosses) ?_
    refine required_then rfl (scalar?_ofScalar h.averageHolding) ?_
    refine required_then rfl (scalar?_ofScalar h.tradesPerYear) ?_
    rfl

structure RunRecord.Storable (r : RunRecord α) : Prop where
  initialCapital : Scalar.isFinite r.initialCapital = true
  finalCapital : Scalar.isFinite r.finalCapital = true
  finalEquity : Scalar.isFinite r.finalEquity = true
  totalReturn : Scalar.isFinite r.totalReturn = true
  totalTrades : (r.totalTrades : Int) ∈ IntRange.unsigned 32
  winningTrades : (r.winningTrades : Int) ∈ IntRange.unsigned 32
  losingTrades : (r.losingTrades : Int) ∈ IntRange.unsigned 32
  trades : ∀ t ∈ r.trades, t.Storable
  curve : ∀ p ∈ r.curve, p.Storable
  timestamps : ∀ time ∈ r.timestamps, time ∈ IntRange.signed 64
  barsProcessed : (r.barsProcessed : Int) ∈ IntRange.unsigned 64

theorem RunRecord.faithful :
    Faithful RunRecord.Storable (RunRecord.toJson (α := α)) RunRecord.ofJson? where
  orderFree := RunRecord.orderFree_ofJson?
  read_written := by
    intro r h
    refine fields_then rfl ?_
    refine required_then rfl (scalar?_ofScalar h.initialCapital) ?_
    refine required_then rfl (scalar?_ofScalar h.finalCapital) ?_
    refine required_then rfl (scalar?_ofScalar h.finalEquity) ?_
    refine required_then rfl (scalar?_ofScalar h.totalReturn) ?_
    refine required_then rfl (nat32?_ofNat h.totalTrades) ?_
    refine required_then rfl (nat32?_ofNat h.winningTrades) ?_
    refine required_then rfl (nat32?_ofNat h.losingTrades) ?_
    refine required_then rfl
      (list?_map fun t ht => Trade.faithful.read_written t (h.trades t ht)) ?_
    refine required_then rfl
      (list?_map fun p hp => EquityPoint.faithful.read_written p (h.curve p hp)) ?_
    refine required_then rfl (list?_map fun time ht => int64?_int (h.timestamps time ht)) ?_
    refine required_then rfl (nat64?_ofNat h.barsProcessed) ?_
    refine required_then rfl rfl ?_
    rfl

end results

/-! ## Settings

Settings are read with defaults, which do not come in when every field is written. -/

section settings

variable {α : Type} [Scalar α]

structure CrossSettings.Storable (s : CrossSettings α) : Prop where
  fastPeriod : (s.fastPeriod : Int) ∈ IntRange.unsigned 64
  slowPeriod : (s.slowPeriod : Int) ∈ IntRange.unsigned 64
  positionSize : Scalar.isFinite s.positionSize = true

theorem CrossSettings.faithful :
    Faithful CrossSettings.Storable (CrossSettings.toJson (α := α)) CrossSettings.ofJson? where
  orderFree := CrossSettings.orderFree_ofJson?
  read_written := by
    intro s h
    refine fields_then rfl ?_
    refine required_then rfl (nat64?_ofNat h.fastPeriod) ?_
    refine required_then rfl (nat64?_ofNat h.slowPeriod) ?_
    refine required_then rfl (scalar?_ofScalar h.positionSize) ?_
    rfl

structure ReversionSettings.Storable (s : ReversionSettings α) : Prop where
  period : (s.period : Int) ∈ IntRange.unsigned 64
  oversold : Scalar.isFinite s.oversold = true
  overbought : Scalar.isFinite s.overbought = true
  positionSize : Scalar.isFinite s.positionSize = true

theorem ReversionSettings.faithful :
    Faithful ReversionSettings.Storable (ReversionSettings.toJson (α := α))
      ReversionSettings.ofJson? where
  orderFree := ReversionSettings.orderFree_ofJson?
  read_written := by
    intro s h
    refine fields_then rfl ?_
    refine required_then rfl (nat64?_ofNat h.period) ?_
    refine required_then rfl (scalar?_ofScalar h.oversold) ?_
    refine required_then rfl (scalar?_ofScalar h.overbought) ?_
    refine required_then rfl (scalar?_ofScalar h.positionSize) ?_
    rfl

structure AccountSettings.Storable (s : AccountSettings α) : Prop where
  initialCapital : Scalar.isFinite s.initialCapital = true
  commissionRate : Scalar.isFinite s.commissionRate = true
  slippageRate : Scalar.isFinite s.slippageRate = true

theorem AccountSettings.faithful :
    Faithful AccountSettings.Storable (AccountSettings.toJson (α := α))
      AccountSettings.ofJson? where
  orderFree := AccountSettings.orderFree_ofJson?
  read_written := by
    intro s h
    refine fields_then rfl ?_
    refine required_then rfl (scalar?_ofScalar h.initialCapital) ?_
    refine required_then rfl (scalar?_ofScalar h.commissionRate) ?_
    refine required_then rfl (scalar?_ofScalar h.slippageRate) ?_
    rfl

structure CleaningSettings.Storable (s : CleaningSettings α) : Prop where
  minBars : (s.minBars : Int) ∈ IntRange.unsigned 64
  maxGap : ∀ gap, s.maxGap = some gap → gap ∈ IntRange.signed 64
  gapTolerance : Scalar.isFinite s.gapTolerance = true
  priceJump : Scalar.isFinite s.priceJump = true
  volumeSpike : Scalar.isFinite s.volumeSpike = true
  volumeLookback : (s.volumeLookback : Int) ∈ IntRange.unsigned 64
  minVolumeHistory : (s.minVolumeHistory : Int) ∈ IntRange.unsigned 64

theorem CleaningSettings.faithful :
    Faithful CleaningSettings.Storable (CleaningSettings.toJson (α := α))
      CleaningSettings.ofJson? where
  orderFree := CleaningSettings.orderFree_ofJson?
  read_written := by
    rintro ⟨minBars, maxGap, gapTolerance, priceJump, volumeSpike, lookback, history⟩ h
    cases maxGap <;>
    · refine fields_then rfl ?_
      refine required_then rfl (nat64?_ofNat h.minBars) ?_
      refine optional_then rfl (Json.optionalInt h.maxGap) ?_
      refine required_then rfl (scalar?_ofScalar h.gapTolerance) ?_
      refine required_then rfl (scalar?_ofScalar h.priceJump) ?_
      refine required_then rfl (scalar?_ofScalar h.volumeSpike) ?_
      refine required_then rfl (nat64?_ofNat h.volumeLookback) ?_
      refine required_then rfl (nat64?_ofNat h.minVolumeHistory) ?_
      rfl

end settings

/-- **The records are read back as they were written**, in every order of their members. For which
values is said by the condition that stands with each record. -/
theorem records_faithful (α : Type) [Scalar α] :
    Faithful Bar.Storable (Bar.toJson (α := α)) Bar.ofJson? ∧
    Faithful Trade.Storable (Trade.toJson (α := α)) Trade.ofJson? ∧
    Faithful Position.Storable (Position.toJson (α := α)) Position.ofJson? ∧
    Faithful Signal.Storable (Signal.toJson (α := α)) Signal.ofJson? ∧
    Faithful EquityPoint.Storable (EquityPoint.toJson (α := α)) EquityPoint.ofJson? ∧
    Faithful Metrics.Storable (Metrics.toJson (α := α)) Metrics.ofJson? ∧
    Faithful RunRecord.Storable (RunRecord.toJson (α := α)) RunRecord.ofJson? ∧
    Faithful CrossSettings.Storable (CrossSettings.toJson (α := α)) CrossSettings.ofJson? ∧
    Faithful ReversionSettings.Storable (ReversionSettings.toJson (α := α))
      ReversionSettings.ofJson? ∧
    Faithful AccountSettings.Storable (AccountSettings.toJson (α := α)) AccountSettings.ofJson? ∧
    Faithful CleaningSettings.Storable (CleaningSettings.toJson (α := α))
      CleaningSettings.ofJson? :=
  ⟨Bar.faithful, Trade.faithful, Position.faithful, Signal.faithful, EquityPoint.faithful,
    Metrics.faithful, RunRecord.faithful, CrossSettings.faithful, ReversionSettings.faithful,
    AccountSettings.faithful, CleaningSettings.faithful⟩

/-- A record with a trade that is over and one that is not, and with whole numbers that no double
holds. -/
def recordWithTrades : RunRecord Float where
  initialCapital := 10000
  finalCapital := 9010.25
  finalEquity := 10020.7
  totalReturn := 0.00207
  totalTrades := 1
  winningTrades := 1
  losingTrades := 0
  trades := [
    ⟨-1, some 9007199254740993, .sell, 100.1, some 110.5, 2, 0.3, 20.5⟩,
    ⟨9223372036854775807, none, .buy, 99.75, none, 10, 0.1, -0.1⟩]
  curve := [⟨9223372036854775807, 10020.7, 0.5⟩]
  timestamps := [-9223372036854775808]
  barsProcessed := 18446744073709551615
  completed := false

/-- It is read back from its members in reverse. -/
theorem records_faithful_sample :
    ∃ members, recordWithTrades.toJson = .object members ∧
      RunRecord.ofJson? (.object members.reverse) = some recordWithTrades := by
  have htrades : ∀ t ∈ recordWithTrades.trades, t.Storable := by
    intro t ht
    simp only [recordWithTrades, List.mem_cons, List.not_mem_nil, or_false] at ht
    rcases ht with rfl | rfl
    · constructor
      case exitTimestamp => rintro _ ⟨⟩; decide
      case exitPrice => rintro _ ⟨⟩; decide +kernel
      all_goals decide +kernel
    · constructor
      case exitTimestamp => nofun
      case exitPrice => nofun
      all_goals decide +kernel
  have hcurve : ∀ p ∈ recordWithTrades.curve, p.Storable := by
    intro p hp
    rw [List.mem_singleton.mp hp]
    constructor <;> decide +kernel
  have hstorable : recordWithTrades.Storable := by
    constructor
    case trades => exact htrades
    case curve => exact hcurve
    all_goals decide +kernel
  obtain ⟨-, -, -, -, -, -, hrecord, -⟩ := records_faithful Float
  refine ⟨_, rfl, hrecord.read_rearranged hstorable ?_⟩
  exact .object (List.reverse_perm _).symm rfl (List.forall₂_same.mpr fun j _ => .refl j)

end MarketReplay
