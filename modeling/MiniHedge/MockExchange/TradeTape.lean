import MiniHedge.MockExchange.BookRefinement
import Mathlib.Data.List.DropRight

/-! The trade tape: the latest ticks of each instrument, and the volumes of the day.

Ticks come from the orders of the platform and from the ambient flow, which cuts its volume
into some market orders. What the tape answers is said of all ticks that it was given.
-/

set_option autoImplicit false

namespace MiniHedge.MockExchange

open MiniHedge.Python MiniHedge.Library

structure TapeTick extends TradeTick where
  timestamp : Datetime
  isAmbient : Bool := false
  deriving DecidableEq, Repr

structure VWAPData where
  instrumentId : String
  vwap : Decimal
  cumulativeVolume : ℕ
  periodStart : Datetime
  periodEnd : Datetime
  deriving DecidableEq, Repr

/-- For each instrument, a deque of so many ticks at most and the volume of the day. -/
structure TradeTape where
  maxTicks : ℕ
  ticks : String → List TapeTick := fun _ => []
  dailyVolume : String → ℕ := fun _ => 0

/-- The loop of `vwap`, with its two sums. -/
def windowSums (start end_ : Datetime) : Decimal × ℕ → List TapeTick → Decimal × ℕ
  | sums, [] => sums
  | sums, tick :: rest =>
    if tick.timestamp < start then windowSums start end_ sums rest
    else if end_ < tick.timestamp then sums
    else windowSums start end_ (sums.1 + tick.price * tick.quantity, sums.2 + tick.quantity) rest

namespace TradeTape

variable (tape : TradeTape)

def recordTick (tick : TapeTick) : TradeTape :=
  { tape with
    ticks := Function.update tape.ticks tick.instrumentId
      ((tape.ticks tick.instrumentId ++ [tick]).rtake tape.maxTicks)
    dailyVolume := Function.update tape.dailyVolume tick.instrumentId
      (tape.dailyVolume tick.instrumentId + tick.quantity) }

def recordTicks (ticks : List TapeTick) : TradeTape := ticks.foldl recordTick tape

def vwap (instrumentId : String) (start end_ : Datetime) : Option VWAPData :=
  let sums := windowSums start end_ (0, 0) (tape.ticks instrumentId)
  if sums.2 = 0 then none
  else some {
    instrumentId
    vwap := quantize 4 .halfEven (sums.1 / sums.2)
    cumulativeVolume := sums.2
    periodStart := start
    periodEnd := end_ }

def arrivalPrice (instrumentId : String) : Option Decimal := (tape.ticks instrumentId).getLast?.map (·.price)

def resetDailyVolumes : TradeTape := { tape with dailyVolume := fun _ => 0 }

end TradeTape

inductive TapeEvent where
  | tick (tick : TapeTick)
  | reset
  deriving DecidableEq, Repr

def TradeTape.record (tape : TradeTape) : TapeEvent → TradeTape
  | .tick tick => tape.recordTick tick
  | .reset => tape.resetDailyVolumes

/-! ## What the tape holds -/

/-- The ticks of an instrument, in the order in which they were recorded. -/
def ticksOf (instrumentId : String) (events : List TapeEvent) : List TapeTick :=
  events.filterMap fun
    | .tick tick => if tick.instrumentId = instrumentId then some tick else none
    | .reset => none

/-- The ticks since the last reset. -/
def sinceReset (events : List TapeEvent) : List TapeEvent := events.rtakeWhile fun event => event ≠ .reset

def volume (ticks : List TapeTick) : ℕ := (ticks.map (·.quantity)).sum

def value (ticks : List TapeTick) : Decimal := (ticks.map fun tick => tick.price * (tick.quantity : ℚ)).sum

theorem volume_append (l m : List TapeTick) : volume (l ++ m) = volume l + volume m := by
  rw [volume, List.map_append, List.sum_append, ← volume, ← volume]

theorem rtake_rtake_concat {α : Type} (n : ℕ) (l : List α) (a : α) :
    (l.rtake n ++ [a]).rtake n = (l ++ [a]).rtake n := by
  cases n with
  | zero => rw [List.rtake_zero, List.rtake_zero]
  | succ n =>
    rw [List.rtake_concat_succ, List.rtake_concat_succ, List.rtake_eq_reverse_take_reverse,
      List.rtake_eq_reverse_take_reverse, List.rtake_eq_reverse_take_reverse, List.reverse_reverse, List.take_take,
      Nat.min_eq_left (Nat.le_succ n)]

/-- After any events, the tape holds the latest ticks of each instrument and their volume since the last reset. -/
theorem tape_after (maxTicks : ℕ) (events : List TapeEvent) (instrumentId : String) :
    let tape := events.foldl TradeTape.record { maxTicks }
    tape.maxTicks = maxTicks ∧ tape.ticks instrumentId = (ticksOf instrumentId events).rtake maxTicks ∧
      tape.dailyVolume instrumentId = volume (ticksOf instrumentId (sinceReset events)) := by
  induction events using List.reverseRecOn with
  | nil =>
    refine ⟨rfl, ?_, rfl⟩
    rw [ticksOf, List.filterMap_nil, List.rtake_nil]
    rfl
  | append_singleton events event ih =>
    obtain ⟨most, held, counted⟩ := ih
    rw [List.foldl_concat]
    generalize events.foldl TradeTape.record { maxTicks } = tape at most held counted
    have split : ticksOf instrumentId (events ++ [event]) = ticksOf instrumentId events ++ ticksOf instrumentId [event] :=
      List.filterMap_append
    cases event with
    | reset =>
      refine ⟨most, ?_, ?_⟩
      · have nothing : ticksOf instrumentId [.reset] = [] := rfl
        rw [split, nothing, List.append_nil]
        exact held
      · have none_since : sinceReset (events ++ [.reset]) = [] := by
          rw [sinceReset, List.rtakeWhile_concat_neg]
          simp
        rw [none_since]
        rfl
    | tick tick =>
      have since : sinceReset (events ++ [.tick tick]) = sinceReset events ++ [.tick tick] := by
        rw [sinceReset, List.rtakeWhile_concat_pos, sinceReset]
        simp
      have split' : ticksOf instrumentId (sinceReset events ++ [.tick tick]) =
          ticksOf instrumentId (sinceReset events) ++ ticksOf instrumentId [.tick tick] := List.filterMap_append
      rw [split, since, split', volume_append, ← counted]
      refine ⟨most, ?_⟩
      dsimp only [TradeTape.record, TradeTape.recordTick]
      by_cases own : tick.instrumentId = instrumentId
      · subst own
        have only : ticksOf tick.instrumentId [.tick tick] = [tick] := by simp [ticksOf]
        rw [Function.update_self, Function.update_self, only, held, most, rtake_rtake_concat]
        exact ⟨rfl, rfl⟩
      · have nothing : ticksOf instrumentId [.tick tick] = [] := by simp [ticksOf, own]
        rw [Function.update_of_ne (Ne.symm own), Function.update_of_ne (Ne.symm own), nothing, List.append_nil, held]
        exact ⟨rfl, rfl⟩

/-! ## The price of a window -/

/-- The ticks of the window. -/
def window (start end_ : Datetime) (ticks : List TapeTick) : List TapeTick :=
  ticks.filter fun tick => start ≤ tick.timestamp ∧ tick.timestamp ≤ end_

theorem windowSums_eq {ticks : List TapeTick} (ordered : ticks.Pairwise fun t u => t.timestamp ≤ u.timestamp)
    (start end_ : Datetime) (sums : Decimal × ℕ) :
    windowSums start end_ sums ticks =
      (sums.1 + value (window start end_ ticks), sums.2 + volume (window start end_ ticks)) := by
  induction ticks generalizing sums with
  | nil => simp [windowSums, window, value, volume]
  | cons tick rest ih =>
    obtain ⟨before, ordered⟩ := List.pairwise_cons.mp ordered
    rw [windowSums, window, List.filter_cons]
    split
    · rename_i early
      rw [if_neg (by simp [early]), ih ordered, ← window]
    · split
      · -- the loop breaks, and all that follows is as late
        rename_i late
        have none_left : rest.filter (fun t => decide (start ≤ t.timestamp ∧ t.timestamp ≤ end_)) = [] := by
          rw [List.filter_eq_nil_iff]
          intro t member
          have later := late.trans_le (before t member)
          simp [later]
        rw [if_neg (by simp [late]), none_left]
        simp [value, volume]
      · rename_i not_early not_late
        rw [if_pos (by simp [not_lt.mp not_early, not_lt.mp not_late]), ih ordered, ← window]
        simp only [value, volume, List.map_cons, List.sum_cons]
        rw [add_assoc, add_assoc]

theorem value_bounds {ticks : List TapeTick} {low high : Decimal}
    (bounded : ∀ tick ∈ ticks, low ≤ tick.price ∧ tick.price ≤ high) :
    low * volume ticks ≤ value ticks ∧ value ticks ≤ high * volume ticks := by
  induction ticks with
  | nil => simp [value, volume]
  | cons tick rest ih =>
    obtain ⟨above, below⟩ := ih fun t member => bounded t (List.mem_cons_of_mem _ member)
    obtain ⟨own_low, own_high⟩ := bounded tick List.mem_cons_self
    have shares : (0 : ℚ) ≤ tick.quantity := Nat.cast_nonneg _
    simp only [value, volume, List.map_cons, List.sum_cons] at above below ⊢
    push_cast at above below ⊢
    constructor
    · nlinarith
    · nlinarith

/-- Where the ticks of an instrument were recorded in time, its price in a window is the average of all that the tape
still holds of it, to four places, and is within their prices. -/
theorem vwap_after {maxTicks : ℕ} {events : List TapeEvent} {instrumentId : String}
    (ordered : (ticksOf instrumentId events).Pairwise fun t u => t.timestamp ≤ u.timestamp) (start end_ : Datetime) :
    let held := window start end_ ((ticksOf instrumentId events).rtake maxTicks)
    (events.foldl TradeTape.record { maxTicks }).vwap instrumentId start end_ =
      (if volume held = 0 then none
        else some ⟨instrumentId, quantize 4 .halfEven (value held / volume held), volume held, start, end_⟩) ∧
    ∀ data ∈ (events.foldl TradeTape.record { maxTicks }).vwap instrumentId start end_, ∀ low high,
      (∀ tick ∈ held, low ≤ tick.price ∧ tick.price ≤ high) →
      quantize 4 .halfEven low ≤ data.vwap ∧ data.vwap ≤ quantize 4 .halfEven high := by
  intro held
  have sums : windowSums start end_ (0, 0) ((events.foldl TradeTape.record { maxTicks }).ticks instrumentId) =
      (value held, volume held) := by
    have latest : ((ticksOf instrumentId events).rtake maxTicks).Pairwise fun t u => t.timestamp ≤ u.timestamp :=
      ordered.sublist (List.drop_sublist _ _)
    rw [(tape_after maxTicks events instrumentId).2.1, windowSums_eq latest, zero_add, zero_add]
  have read : (events.foldl TradeTape.record { maxTicks }).vwap instrumentId start end_ =
      if volume held = 0 then none
      else some ⟨instrumentId, quantize 4 .halfEven (value held / volume held), volume held, start, end_⟩ := by
    rw [TradeTape.vwap, sums]
  refine ⟨read, ?_⟩
  intro data found low high bounded
  rw [read] at found
  split at found
  · cases found
  · rename_i traded
    cases found
    have positive : (0 : ℚ) < volume held := Nat.cast_pos.mpr (Nat.pos_of_ne_zero traded)
    obtain ⟨above, below⟩ := value_bounds bounded
    constructor
    · apply quantize_mono
      rwa [le_div_iff₀ positive]
    · apply quantize_mono
      rwa [div_le_iff₀ positive]

/-- Three ticks on a tape for two, with a new day after the second. -/
def someEvents : List TapeEvent := [
  .tick ⟨⟨"A", 90, 10, .buy⟩, 1, false⟩,
  .tick ⟨⟨"A", 100, 10, .buy⟩, 2, false⟩,
  .reset,
  .tick ⟨⟨"A", 102, 30, .sell⟩, 3, true⟩]

theorem someEvents_vwap : ∃ data,
    (someEvents.foldl TradeTape.record { maxTicks := 2 }).vwap "A" 0 5 = some data ∧ data.vwap = 203 / 2 ∧
      quantize 4 .halfEven 100 ≤ data.vwap ∧ data.vwap ≤ quantize 4 .halfEven 102 := by
  have found : (someEvents.foldl TradeTape.record { maxTicks := 2 }).vwap "A" 0 5 =
      some ⟨"A", 203 / 2, 40, 0, 5⟩ := by decide +kernel
  have ordered : (ticksOf "A" someEvents).Pairwise fun t u => t.timestamp ≤ u.timestamp := by decide
  exact ⟨_, found, rfl, (vwap_after ordered 0 5).2 _ found 100 102 (by decide +kernel)⟩

/-! ## The ambient flow -/

/-- `randint(1, max(1, remaining // 2))`, at most what remains. -/
def orderQuantity (draw remaining : ℕ) : ℕ := min (1 + draw % max 1 (remaining / 2)) remaining

/-- The quantities and the sides of the market orders: one for each draw, the last of them for all that remains. -/
def marketOrders : ℕ → List (ℕ × Side) → List (ℕ × Side)
  | _, [] => []
  | remaining, (draw, side) :: rest =>
    if remaining = 0 then []
    else
      let quantity := if rest = [] then remaining else orderQuantity draw remaining
      (quantity, side) :: marketOrders (remaining - quantity) rest

/-- The orders go through the book one after the other. -/
def SimulatedOrderBook.executeOrders (now : Datetime) :
    SimulatedOrderBook → List (ℕ × Side) → List TapeTick × SimulatedOrderBook
  | b, [] => ([], b)
  | b, (quantity, side) :: rest =>
    let (ticks, b) := b.executeMarketOrder side quantity
    let (later, b) := executeOrders now b rest
    (ticks.map (fun tick => { tick with timestamp := now, isAmbient := true }) ++ later, b)

def generateMarketTrades (b : SimulatedOrderBook) (now : Datetime) (totalVolume : ℕ) (draws : List (ℕ × Side)) :
    List TapeTick × SimulatedOrderBook :=
  b.executeOrders now (marketOrders totalVolume draws)

theorem orderQuantity_bounds (draw : ℕ) {remaining : ℕ} (some_left : 0 < remaining) :
    0 < orderQuantity draw remaining ∧ orderQuantity draw remaining ≤ remaining := by
  rw [orderQuantity]
  omega

/-- The orders add up to the volume, and none of them is empty. -/
theorem marketOrders_total (total : ℕ) {draws : List (ℕ × Side)} (drawn : draws ≠ []) :
    ((marketOrders total draws).map (·.1)).sum = total ∧ ∀ order ∈ marketOrders total draws, 0 < order.1 := by
  induction draws generalizing total with
  | nil => exact absurd rfl drawn
  | cons draw rest ih =>
    rw [marketOrders]
    split
    · rename_i nothing
      simp [nothing]
    · rename_i some_left
      have positive := Nat.pos_of_ne_zero some_left
      dsimp only
      by_cases last : rest = []
      · subst last
        simp [marketOrders, positive]
      · rw [if_neg last]
        obtain ⟨own, within⟩ := orderQuantity_bounds draw.1 positive
        obtain ⟨total_later, each_later⟩ := ih (total - orderQuantity draw.1 total) last
        constructor
        · rw [List.map_cons, List.sum_cons, total_later]
          omega
        · intro order member
          rcases List.mem_cons.mp member with rfl | later
          · exact own
          · exact each_later order later

/-- How much the ticks trade. -/
def traded (ticks : List TradeTick) : ℕ := (ticks.map (·.quantity)).sum

namespace SimulatedOrderBook

variable (b : SimulatedOrderBook)

/-- How much an order of the side can take. -/
def depth (side : Side) : ℕ := (b.offered side).length

theorem depth_met (side : Side) : b.depth side = (units (b.met side)).length := by
  cases side with
  | buy => rfl
  | sell => rw [depth, offered, met, units_map]

/-- An order trades as much as it can, and what it trades is taken from its side. -/
theorem depth_marketOrder (side : Side) (quantity : ℕ) :
    traded (b.executeMarketOrder side quantity).1 = min quantity (b.depth side) ∧
      traded (b.executeMarketOrder side quantity).1 + (b.executeMarketOrder side quantity).2.depth side =
        b.depth side ∧
      ∀ other ≠ side, (b.executeMarketOrder side quantity).2.depth other = b.depth other := by
  obtain ⟨ticks, left⟩ := PriceBook.take_walk b side (fun _ => false) quantity
  refine ⟨?_, ?_, ?_⟩
  · rw [traded, ← length_executed, executed_marketOrder, List.length_take, Int.toNat_natCast, depth]
  · have parts := length_units_walk (fun _ => false) (quantity : ℤ).toNat (b.met side)
    rw [depth_met, depth_met, ← parts, executeMarketOrder, left, ticks, traded, length_units, length_units, List.map_map]
    rfl
  · intro other different
    rw [depth_met, depth_met, executeMarketOrder, PriceBook.take_other b different]

/-- What the orders trade is taken from the book, is no more than they ask for, and is all of it where the book is as
deep on either side. -/
theorem depth_orders (now : Datetime) (orders : List (ℕ × Side)) :
    volume (b.executeOrders now orders).1 + ((b.executeOrders now orders).2.depth .buy +
        (b.executeOrders now orders).2.depth .sell) = b.depth .buy + b.depth .sell ∧
      volume (b.executeOrders now orders).1 ≤ (orders.map (·.1)).sum ∧
      ((∀ side, (orders.map (·.1)).sum ≤ b.depth side) →
        volume (b.executeOrders now orders).1 = (orders.map (·.1)).sum) := by
  induction orders generalizing b with
  | nil => simp [executeOrders, volume]
  | cons order rest ih =>
    obtain ⟨quantity, side⟩ := order
    obtain ⟨most, taken, others⟩ := b.depth_marketOrder side quantity
    obtain ⟨conserved, within, whole⟩ := ih (b.executeMarketOrder side quantity).2
    rw [executeOrders]
    dsimp only
    generalize (b.executeMarketOrder side quantity).2 = b' at *
    generalize (b.executeMarketOrder side quantity).1 = ticks at *
    have own : volume (ticks.map fun tick => ({ tick with timestamp := now, isAmbient := true } : TapeTick)) =
        traded ticks := by
      rw [volume, traded, List.map_map]
      rfl
    rw [volume_append, own, List.map_cons, List.sum_cons]
    have depths : traded ticks + (b'.depth .buy + b'.depth .sell) = b.depth .buy + b.depth .sell := by
      cases side with
      | buy => rw [others .sell (by decide)]; omega
      | sell => rw [others .buy (by decide)]; omega
    refine ⟨by omega, by omega, ?_⟩
    intro deep
    have all : traded ticks = quantity := by
      have own_deep := deep side
      omega
    have still_deep : ∀ other, (rest.map (·.1)).sum ≤ b'.depth other := by
      intro other
      have other_deep := deep other
      by_cases same : other = side
      · subst same
        omega
      · rw [others other same]
        omega
    rw [all, whole still_deep]

end SimulatedOrderBook

theorem dailyVolume_recordTicks (tape : TradeTape) (instrumentId : String) {ticks : List TapeTick}
    (own : ∀ tick ∈ ticks, tick.instrumentId = instrumentId) :
    (tape.recordTicks ticks).dailyVolume instrumentId = tape.dailyVolume instrumentId + volume ticks := by
  induction ticks generalizing tape with
  | nil => rfl
  | cons tick rest ih =>
    rw [TradeTape.recordTicks, List.foldl_cons, ← TradeTape.recordTicks,
      ih _ fun t member => own t (List.mem_cons_of_mem _ member)]
    have same := own tick List.mem_cons_self
    simp only [TradeTape.recordTick, volume, List.map_cons, List.sum_cons]
    rw [same, Function.update_self, Nat.add_assoc]

theorem instrument_executeOrders (b : SimulatedOrderBook) (now : Datetime) (orders : List (ℕ × Side)) :
    ∀ tick ∈ (b.executeOrders now orders).1, tick.instrumentId = b.instrumentId := by
  induction orders generalizing b with
  | nil => exact fun tick member => nomatch member
  | cons order rest ih =>
    obtain ⟨quantity, side⟩ := order
    intro tick member
    obtain ⟨ticks, -⟩ := PriceBook.take_walk b side (fun _ => false) quantity
    have kept : (b.executeMarketOrder side quantity).2.instrumentId = b.instrumentId := by
      cases side <;> rfl
    rw [SimulatedOrderBook.executeOrders] at member
    rcases List.mem_append.mp member with own | later
    · obtain ⟨trade, among, rfl⟩ := List.mem_map.mp own
      rw [SimulatedOrderBook.executeMarketOrder, ticks] at among
      obtain ⟨level, -, rfl⟩ := List.mem_map.mp among
      rfl
    · rw [← kept]
      exact ih _ tick later

/-- However the volume is cut into orders: what the ambient flow trades is taken from the book and counted by the
tape, is never more than its volume, and is all of it where the book is as deep on either side. -/
theorem ambient_volume (b : SimulatedOrderBook) (tape : TradeTape) (now : Datetime) (totalVolume : ℕ)
    (draw : ℕ × Side) (draws : List (ℕ × Side)) :
    let traded := generateMarketTrades b now totalVolume (draw :: draws)
    (tape.recordTicks traded.1).dailyVolume b.instrumentId = tape.dailyVolume b.instrumentId + volume traded.1 ∧
      volume traded.1 + (traded.2.depth .buy + traded.2.depth .sell) = b.depth .buy + b.depth .sell ∧
      volume traded.1 ≤ totalVolume ∧
      ((∀ side, totalVolume ≤ b.depth side) → volume traded.1 = totalVolume) := by
  obtain ⟨total, -⟩ := marketOrders_total totalVolume (List.cons_ne_nil draw draws)
  obtain ⟨conserved, within, whole⟩ := b.depth_orders now (marketOrders totalVolume (draw :: draws))
  rw [total] at within whole
  exact ⟨dailyVolume_recordTicks tape b.instrumentId (instrument_executeOrders b now _), conserved, within, whole⟩

end MiniHedge.MockExchange
