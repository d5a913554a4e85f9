import MiniHedge.Library.Buckets
import MiniHedge.Library.Latest
import MiniHedge.Python.Decimal

/-! Price ticks: validated, compared with the last of their feed, stored, cached and published.

Moments are in microseconds. The messages of the validator are left out.
-/

set_option autoImplicit false

namespace MiniHedge.MarketData

open MiniHedge.Python MiniHedge.Library

/-- An instrument as one source quotes it. -/
structure Feed where
  instrumentId : String
  source : String
  deriving DecidableEq, Repr

structure PriceSnapshot where
  instrumentId : String
  bid : Decimal
  ask : Decimal
  mid : Decimal
  volume : Option Decimal := none
  timestamp : Datetime
  source : String
  deriving DecidableEq, Repr

namespace PriceSnapshot

variable (s : PriceSnapshot)

/-- What its row keeps of a tick. -/
def columns : PriceSnapshot :=
  { s with bid := numeric 8 s.bid, ask := numeric 8 s.ask, mid := numeric 8 s.mid, volume := s.volume.map (numeric 2) }

/-- The primary key of a row, which the source is no part of. -/
def key : Datetime × String := (s.timestamp, s.instrumentId)

def feed : Feed := ⟨s.instrumentId, s.source⟩

end PriceSnapshot

/-! ## The validator -/

inductive Check where
  | positivity
  | spread
  | staleness
  | bidAskOrder
  deriving DecidableEq, Repr

structure ValidationResult where
  valid : Bool
  check : Check
  deriving DecidableEq, Repr

structure PriceValidationReport where
  instrumentId : String
  results : List ValidationResult
  deriving DecidableEq, Repr

namespace PriceValidationReport

variable (r : PriceValidationReport)

def valid : Bool := r.results.all (·.valid)

def failures : List ValidationResult := r.results.filter (!·.valid)

end PriceValidationReport

structure PriceValidator where
  maxSpreadBps : Decimal := 500
  maxStaleness : Int := 15 * 60 * 1000000
  allowZeroPrice : Bool := false
  deriving DecidableEq, Repr

namespace PriceValidator

variable (v : PriceValidator)

def checkPositivity (bid ask mid : Decimal) : ValidationResult where
  valid := !(bid < 0 ∨ ask < 0) && !(!v.allowZeroPrice && mid ≤ 0)
  check := .positivity

/-- Without a positive mid price the spread is not computed. -/
def checkSpread (bid ask mid : Decimal) : ValidationResult where
  valid := mid ≤ 0 ∨ (ask - bid) / mid * 10000 ≤ v.maxSpreadBps
  check := .spread

def checkStaleness (timestamp now : Datetime) : ValidationResult where
  valid := now - timestamp ≤ v.maxStaleness
  check := .staleness

def checkBidAskOrder (bid ask : Decimal) : ValidationResult where
  valid := bid ≤ ask
  check := .bidAskOrder

def validate (now : Datetime) (s : PriceSnapshot) : PriceValidationReport where
  instrumentId := s.instrumentId
  results := [v.checkPositivity s.bid s.ask s.mid, v.checkSpread s.bid s.ask s.mid,
    v.checkStaleness s.timestamp now, checkBidAskOrder s.bid s.ask]

end PriceValidator

/-! ## The service behind it -/

/-- The table of prices, and the latest price of each instrument in memory. -/
structure MarketDataService where
  prices : List PriceSnapshot := []
  latest : List (String × PriceSnapshot) := []
  deriving DecidableEq

namespace MarketDataService

variable (m : MarketDataService)

/-- `ON CONFLICT DO NOTHING`: the first row of a key stays. -/
def storePrice (s : PriceSnapshot) : MarketDataService :=
  if m.prices.any (·.key = s.key) then m else { m with prices := m.prices ++ [s.columns] }

def updateLatest (s : PriceSnapshot) : MarketDataService :=
  { m with latest := setItem s.instrumentId s m.latest }

/-- `PriceRepository.get_latest`; `tie` chooses among rows of one moment. -/
def storedLatest (tie : Nat) (instrumentId : String) : Option PriceSnapshot :=
  latestRow (·.timestamp) (m.prices.filter (·.instrumentId = instrumentId)) tie

def getLatestPrice (tie : Nat) (instrumentId : String) : Option PriceSnapshot :=
  match m.latest.lookup instrumentId with
  | some cached => some cached
  | none => m.storedLatest tie instrumentId

/-- The service after so many accepted ticks. -/
def received (arrivals : List PriceSnapshot) : MarketDataService :=
  arrivals.foldl (fun m s => (m.storePrice s).updateLatest s) {}

end MarketDataService

/-! ## The pipeline -/

inductive Reason where
  | ok
  | validationFailed
  | duplicate
  deriving DecidableEq, Repr

structure IngestionResult where
  instrumentId : String
  accepted : Bool
  reason : Reason := .ok
  validationReport : Option PriceValidationReport := none
  deriving DecidableEq, Repr

structure FeedEntry where
  instrumentId : String
  source : String
  lastUpdate : Datetime
  lastPrice : Decimal
  deriving DecidableEq, Repr

/-- The event of a tick, which carries its fields as texts. -/
structure PublishedPrice where
  topic : String
  eventType : String
  snapshot : PriceSnapshot
  deriving DecidableEq, Repr

structure IngestionService where
  service : MarketDataService := {}
  validator : PriceValidator := {}
  feeds : List (String × FeedEntry) := []
  /-- Whether there is an event bus. -/
  eventBus : Bool := true
  publishTopic : String := "prices.normalized"
  /-- In seconds. -/
  dedupWindow : Int := 1
  seen : List (Feed × Datetime) := []
  published : List PublishedPrice := []
  deriving DecidableEq

namespace IngestionService

variable (svc : IngestionService)

def isDuplicate (s : PriceSnapshot) : Bool :=
  match svc.seen.lookup s.feed with
  | some lastTs => |s.timestamp - lastTs| < svc.dedupWindow * 1000000
  | none => false

def normalized (s : PriceSnapshot) : PublishedPrice := ⟨svc.publishTopic, "prices.normalized", s⟩

/-- Store, mark as seen, cache, record for the feed, publish. -/
def accept (s : PriceSnapshot) : IngestionService :=
  { svc with
    service := (svc.service.storePrice s).updateLatest s
    seen := setItem s.feed s.timestamp svc.seen
    feeds := setItem (s.instrumentId ++ ":" ++ s.source) ⟨s.instrumentId, s.source, s.timestamp, s.mid⟩ svc.feeds
    published := if svc.eventBus then svc.published ++ [svc.normalized s] else svc.published }

def ingest (now : Datetime) (s : PriceSnapshot) : IngestionService × IngestionResult :=
  let report := svc.validator.validate now s
  if !report.valid then
    (svc, ⟨s.instrumentId, false, .validationFailed, some report⟩)
  else if svc.isDuplicate s then
    (svc, ⟨s.instrumentId, false, .duplicate, none⟩)
  else
    (svc.accept s, ⟨s.instrumentId, true, .ok, none⟩)

/-- Ticks with the moments at which they come. -/
abbrev Arrivals := List (Datetime × PriceSnapshot)

/-- The loop of `ingest_batch`. -/
def ingestEach (svc : IngestionService) : Arrivals → IngestionService × List IngestionResult
  | [] => (svc, [])
  | (now, s) :: rest =>
    let (next, result) := svc.ingest now s
    let (last, results) := ingestEach next rest
    (last, result :: results)

structure IngestionBatchResult where
  total : Nat
  accepted : Nat
  rejected : Nat
  duplicates : Nat
  results : List IngestionResult
  deriving DecidableEq, Repr

def ingestBatch (snapshots : Arrivals) : IngestionService × IngestionBatchResult :=
  let (last, results) := svc.ingestEach snapshots
  (last,
    { total := snapshots.length
      accepted := results.countP (·.accepted)
      rejected := results.countP fun r => !r.accepted && r.reason ≠ .duplicate
      duplicates := results.countP fun r => !r.accepted && r.reason = .duplicate
      results := results })

/-- The ticks that are accepted. -/
def accepted (svc : IngestionService) : Arrivals → List PriceSnapshot
  | [] => []
  | (now, s) :: rest =>
    let (next, result) := svc.ingest now s
    if result.accepted then s :: accepted next rest else accepted next rest

end IngestionService

/-! ## What is stored -/

namespace MarketDataService

@[simp] theorem key_columns (s : PriceSnapshot) : s.columns.key = s.key := rfl

theorem received_append (arrivals : List PriceSnapshot) (s : PriceSnapshot) :
    received (arrivals ++ [s]) = ((received arrivals).storePrice s).updateLatest s := by
  simp [received]

theorem prices_append (arrivals : List PriceSnapshot) (s : PriceSnapshot) :
    (received (arrivals ++ [s])).prices =
      if (received arrivals).prices.any (·.key = s.key) then (received arrivals).prices
      else (received arrivals).prices ++ [s.columns] := by
  rw [received_append, updateLatest, storePrice]
  split
  · rfl
  · rfl

theorem key_of_find {arrivals : List PriceSnapshot} {key : Datetime × String} {first : PriceSnapshot}
    (found : arrivals.find? (·.key = key) = some first) : first.key = key := by
  simpa using List.find?_some found

/-- The rows are those of the ticks that came first with their keys. -/
theorem mem_prices {arrivals : List PriceSnapshot} {r : PriceSnapshot} :
    r ∈ (received arrivals).prices ↔ ∃ s, arrivals.find? (·.key = r.key) = some s ∧ s.columns = r := by
  induction arrivals using List.reverseRecOn generalizing r with
  | nil => simp [received]
  | append_singleton arrivals s ih =>
    rw [prices_append, List.find?_append]
    split
    · rename_i present
      obtain ⟨row, held, same⟩ := List.any_eq_true.mp present
      obtain ⟨first, found, rfl⟩ := ih.mp held
      rw [ih]
      by_cases own : s.key = r.key
      · -- the first tick of the key came before
        have key : first.columns.key = r.key := (of_decide_eq_true same).trans own
        rw [key] at found
        rw [found, Option.some_or]
      · rw [List.find?_cons_of_neg (by simpa using own), List.find?_nil, Option.or_none]
    · rename_i absent
      rw [List.mem_append, List.mem_singleton, ih]
      by_cases own : s.key = r.key
      · have none_before : arrivals.find? (·.key = r.key) = none := by
          cases found : arrivals.find? (·.key = r.key) with
          | none => rfl
          | some first =>
            have key := key_of_find found
            have held : first.columns ∈ (received arrivals).prices :=
              ih.mpr ⟨first, by rw [key_columns, key]; exact found, rfl⟩
            exact absurd (List.any_eq_true.mpr ⟨_, held, decide_eq_true (key.trans own.symm)⟩) absent
        rw [none_before, Option.none_or, List.find?_cons_of_pos (by simpa using own)]
        simp [eq_comm]
      · rw [List.find?_cons_of_neg (by simpa using own), List.find?_nil, Option.or_none]
        have other : r ≠ s.columns := by
          rintro rfl
          exact own rfl
        simp [other]

theorem nodup_prices (arrivals : List PriceSnapshot) : ((received arrivals).prices.map (·.key)).Nodup := by
  induction arrivals using List.reverseRecOn with
  | nil => exact List.nodup_nil
  | append_singleton arrivals s ih =>
    rw [prices_append]
    split
    · exact ih
    · rename_i absent
      rw [List.map_append, List.map_singleton, key_columns, List.nodup_append]
      refine ⟨ih, List.nodup_singleton _, ?_⟩
      intro key member other only same
      obtain ⟨row, held, rfl⟩ := List.mem_map.mp member
      rw [List.mem_singleton] at only
      exact absent (List.any_eq_true.mpr ⟨row, held, decide_eq_true (same.trans only)⟩)

/-- Some tick of the instrument and moment came first. -/
theorem find_of_mem {arrivals : List PriceSnapshot} {s : PriceSnapshot} (member : s ∈ arrivals) :
    ∃ first, arrivals.find? (·.key = s.key) = some first ∧ first.key = s.key := by
  have found : (arrivals.find? (·.key = s.key)).isSome := by
    rw [List.find?_isSome]
    exact ⟨s, member, decide_eq_true rfl⟩
  obtain ⟨first, found⟩ := Option.isSome_iff_exists.mp found
  exact ⟨first, found, key_of_find found⟩

theorem columns_mem_prices {arrivals : List PriceSnapshot} {key : Datetime × String} {first : PriceSnapshot}
    (found : arrivals.find? (·.key = key) = some first) : first.columns ∈ (received arrivals).prices := by
  rw [mem_prices, key_columns, key_of_find found]
  exact ⟨first, found, rfl⟩

/-- A tick has one row, which may be that of another tick of its instrument and moment. -/
theorem count_prices {arrivals : List PriceSnapshot} {s : PriceSnapshot} (member : s ∈ arrivals) :
    ((received arrivals).prices.map (·.key)).count s.key = 1 := by
  obtain ⟨first, found, key⟩ := find_of_mem member
  apply List.count_eq_one_of_mem (nodup_prices arrivals)
  rw [List.mem_map]
  exact ⟨first.columns, columns_mem_prices found, key⟩

theorem lookup_latest (arrivals : List PriceSnapshot) (instrumentId : String) :
    (received arrivals).latest.lookup instrumentId =
      (arrivals.filter (·.instrumentId = instrumentId)).getLast? := by
  have written : (received arrivals).latest =
      writeEach PriceSnapshot.instrumentId (fun _ s => s) [] arrivals := by
    induction arrivals using List.reverseRecOn with
    | nil => rfl
    | append_singleton arrivals s ih =>
      have cached : ((received arrivals).storePrice s).latest = (received arrivals).latest := by
        rw [storePrice]
        split
        · rfl
        · rfl
      rw [received_append, updateLatest, cached, ih, writeEach, writeEach, List.foldl_append]
      rfl
  rw [written, lookup_write_last PriceSnapshot.instrumentId (fun s => s), Option.map_id']

end MarketDataService

/-! ## A run of ticks -/

namespace IngestionService

variable {svc : IngestionService}

/-- A tick is refused for its data, or as a duplicate, or accepted. -/
theorem ingest_valid {now : Datetime} {s : PriceSnapshot} (valid : (svc.validator.validate now s).valid) :
    svc.ingest now s =
      if svc.isDuplicate s then (svc, ⟨s.instrumentId, false, .duplicate, none⟩)
      else (svc.accept s, ⟨s.instrumentId, true, .ok, none⟩) := by
  simp only [ingest, valid, Bool.not_true, Bool.false_eq_true, if_false]

variable (svc) in
theorem ingest_fst (now : Datetime) (s : PriceSnapshot) :
    (svc.ingest now s).1 = if (svc.ingest now s).2.accepted then svc.accept s else svc := by
  unfold ingest
  simp only
  split
  · rfl
  · split
    · rfl
    · rfl

/-- The service has come by what it accepted, and by nothing else. -/
theorem ingestEach_fst (ticks : Arrivals) : (svc.ingestEach ticks).1 = (svc.accepted ticks).foldl accept svc := by
  induction ticks generalizing svc with
  | nil => rfl
  | cons tick rest ih =>
    obtain ⟨now, s⟩ := tick
    rw [ingestEach, accepted]
    simp only [ih]
    have next := ingest_fst svc now s
    split
    · rename_i taken
      rw [if_pos taken] at next
      rw [List.foldl_cons, next]
    · rename_i refused
      rw [if_neg refused] at next
      rw [next]

variable (svc) in
theorem accepted_sublist (ticks : Arrivals) : (svc.accepted ticks).Sublist (ticks.map (·.2)) := by
  induction ticks generalizing svc with
  | nil => exact .slnil
  | cons tick rest ih =>
    obtain ⟨now, s⟩ := tick
    rw [accepted]
    simp only
    split
    · exact (ih _).cons_cons s
    · exact (ih _).cons s

variable (svc) in
theorem length_results (ticks : Arrivals) : (svc.ingestEach ticks).2.length = ticks.length := by
  induction ticks generalizing svc with
  | nil => rfl
  | cons tick rest ih => exact congrArg (· + 1) (ih _)

variable (svc) in
theorem countP_accepted (ticks : Arrivals) :
    (svc.ingestEach ticks).2.countP (·.accepted) = (svc.accepted ticks).length := by
  induction ticks generalizing svc with
  | nil => rfl
  | cons tick rest ih =>
    obtain ⟨now, s⟩ := tick
    rw [ingestEach, accepted]
    simp only [List.countP_cons, ih]
    split
    · rfl
    · rfl

theorem countP_results (results : List IngestionResult) :
    results.countP (·.accepted) + (results.countP fun r => !r.accepted && r.reason ≠ .duplicate) +
      (results.countP fun r => !r.accepted && r.reason = .duplicate) = results.length := by
  induction results with
  | nil => rfl
  | cons r rest ih =>
    simp only [List.countP_cons, List.length_cons]
    rw [← ih]
    cases r.accepted with
    | true =>
      simp
      omega
    | false =>
      by_cases duplicate : r.reason = .duplicate
      · simp [duplicate]
        omega
      · simp [duplicate]
        omega

/-- A batch counts each of its ticks once, and as accepted those that are. -/
theorem ingestBatch_counts (snapshots : Arrivals) :
    (svc.ingestBatch snapshots).2.accepted = (svc.accepted snapshots).length ∧
      (svc.ingestBatch snapshots).2.accepted + (svc.ingestBatch snapshots).2.rejected +
        (svc.ingestBatch snapshots).2.duplicates = (svc.ingestBatch snapshots).2.total :=
  ⟨countP_accepted svc snapshots, (countP_results _).trans (length_results svc snapshots)⟩

theorem service_foldl (taken : List PriceSnapshot) :
    (taken.foldl accept svc).service = taken.foldl (fun m s => (m.storePrice s).updateLatest s) svc.service := by
  induction taken generalizing svc with
  | nil => rfl
  | cons s taken ih =>
    rw [List.foldl_cons, List.foldl_cons, ih]
    rfl

theorem seen_foldl (taken : List PriceSnapshot) :
    (taken.foldl accept svc).seen = writeEach PriceSnapshot.feed (fun _ s => s.timestamp) svc.seen taken := by
  induction taken generalizing svc with
  | nil => rfl
  | cons s taken ih =>
    rw [List.foldl_cons, ih]
    rfl

theorem settings_foldl (taken : List PriceSnapshot) :
    (taken.foldl accept svc).validator = svc.validator ∧ (taken.foldl accept svc).dedupWindow = svc.dedupWindow := by
  induction taken generalizing svc with
  | nil => exact ⟨rfl, rfl⟩
  | cons s taken ih => exact ih

theorem eventBus_foldl (taken : List PriceSnapshot) : (taken.foldl accept svc).eventBus = svc.eventBus := by
  induction taken generalizing svc with
  | nil => rfl
  | cons s taken ih => exact ih

theorem published_foldl (bus : svc.eventBus) (taken : List PriceSnapshot) :
    (taken.foldl accept svc).published = svc.published ++ taken.map svc.normalized := by
  induction taken generalizing svc with
  | nil => simp
  | cons s taken ih =>
    have next : (svc.accept s).published = svc.published ++ [svc.normalized s] := if_pos bus
    have same : (svc.accept s).normalized = svc.normalized := rfl
    have later := @ih (svc.accept s) bus
    rw [List.foldl_cons, later, next, same, List.map_cons, List.append_assoc]
    rfl

theorem published_accept (ticks : Arrivals) (bus : svc.eventBus) (s : PriceSnapshot) :
    ((svc.ingestEach ticks).1.accept s).published = (svc.ingestEach ticks).1.published ++ [svc.normalized s] := by
  rw [ingestEach_fst, published_foldl bus]
  have both := published_foldl bus (svc.accepted ticks ++ [s])
  rw [List.foldl_concat, List.map_append, ← List.append_assoc] at both
  exact both

/-- A service that has seen no tick yet. -/
structure Fresh (svc : IngestionService) : Prop where
  service : svc.service = {}
  seen : svc.seen = []
  published : svc.published = []

/-- The last tick of the feed that was accepted. -/
def lastOf (taken : List PriceSnapshot) (feed : Feed) : Option PriceSnapshot :=
  (taken.filter (·.feed = feed)).getLast?

theorem Fresh.isDuplicate_iff (fresh : svc.Fresh) (taken : List PriceSnapshot) (s : PriceSnapshot) :
    (taken.foldl accept svc).isDuplicate s ↔
      ∃ last, lastOf taken s.feed = some last ∧ |s.timestamp - last.timestamp| < svc.dedupWindow * 1000000 := by
  rw [isDuplicate, seen_foldl, fresh.seen, lookup_write_last PriceSnapshot.feed (·.timestamp), (settings_foldl taken).2]
  change (match (lastOf taken s.feed).map (·.timestamp) with
    | some lastTs => decide (|s.timestamp - lastTs| < svc.dedupWindow * 1000000)
    | none => false) = true ↔ _
  cases lastOf taken s.feed with
  | none => simp
  | some last => simp

/-- The result of a tick that comes after others. -/
def resultAfter (svc : IngestionService) (before : Arrivals) (now : Datetime) (s : PriceSnapshot) : IngestionResult :=
  ((svc.ingestEach before).1.ingest now s).2

/-- The tick is within the window of the last tick of its feed that was accepted. -/
def Within (svc : IngestionService) (before : Arrivals) (s : PriceSnapshot) : Prop :=
  ∃ last, lastOf (svc.accepted before) s.feed = some last ∧
    |s.timestamp - last.timestamp| < svc.dedupWindow * 1000000

/-- Its feed had a tick of its moment accepted. -/
def Repeats (svc : IngestionService) (before : Arrivals) (s : PriceSnapshot) : Prop :=
  ∃ t ∈ svc.accepted before, t.feed = s.feed ∧ t.timestamp = s.timestamp

/-- The ticks of a run that are within the window are dropped. All others that repeat no tick are accepted, with
one row for their instrument and moment and an event, and no tick has events but its own. -/
structure DropsWithinWindow (svc : IngestionService) (ticks : Arrivals) : Prop where
  dropped : ∀ before now s after, ticks = before ++ (now, s) :: after → svc.Within before s →
    (svc.resultAfter before now s).reason = .duplicate ∧
      ((svc.ingestEach before).1.ingest now s).1 = (svc.ingestEach before).1
  kept : ∀ before now s after, ticks = before ++ (now, s) :: after → ¬ svc.Within before s →
    ¬ svc.Repeats before s → (svc.resultAfter before now s).accepted ∧
      (svc.eventBus → ((svc.ingestEach before).1.ingest now s).1.published =
        (svc.ingestEach before).1.published ++ [svc.normalized s])
  stored : ∀ s ∈ svc.accepted ticks, ((svc.ingestEach ticks).1.service.prices.map (·.key)).count s.key = 1
  published : ∀ before now s after, ticks = before ++ (now, s) :: after →
    ((svc.ingestEach before).1.ingest now s).1.published = (svc.ingestEach before).1.published ∨
      ((svc.ingestEach before).1.ingest now s).1.published =
        (svc.ingestEach before).1.published ++ [svc.normalized s]

/-- Each feed's ticks come in order, and those of different moments no closer than the window. -/
def InOrder (svc : IngestionService) (ticks : Arrivals) : Prop :=
  (ticks.map (·.2)).Pairwise fun a b => a.feed = b.feed →
    a.timestamp = b.timestamp ∨ a.timestamp + svc.dedupWindow * 1000000 ≤ b.timestamp

/-- What is dropped are the ticks whose feed has had one of their moment. -/
def DropsRepeated (svc : IngestionService) (ticks : Arrivals) : Prop :=
  ∀ before now s after, ticks = before ++ (now, s) :: after →
    ((svc.resultAfter before now s).reason = .duplicate ↔ svc.Repeats before s)

section Runs

variable (fresh : svc.Fresh)
include fresh

theorem Fresh.service_ingestEach (ticks : Arrivals) :
    (svc.ingestEach ticks).1.service = MarketDataService.received (svc.accepted ticks) := by
  rw [ingestEach_fst, service_foldl, fresh.service]
  rfl

/-- What becomes of a valid tick that comes after others. -/
theorem Fresh.ingest_after (before : Arrivals) {now : Datetime} {s : PriceSnapshot}
    (valid : (svc.validator.validate now s).valid) :
    (svc.Within before s ∧ (svc.ingestEach before).1.ingest now s =
        ((svc.ingestEach before).1, ⟨s.instrumentId, false, .duplicate, none⟩)) ∨
      ¬ svc.Within before s ∧ (svc.ingestEach before).1.ingest now s =
        ((svc.ingestEach before).1.accept s, ⟨s.instrumentId, true, .ok, none⟩) := by
  have valid' : ((svc.ingestEach before).1.validator.validate now s).valid := by
    rwa [ingestEach_fst, (settings_foldl _).1]
  have window := fresh.isDuplicate_iff (svc.accepted before) s
  rw [← ingestEach_fst] at window
  rw [ingest_valid valid', Within, ← window]
  by_cases duplicate : (svc.ingestEach before).1.isDuplicate s
  · exact .inl ⟨duplicate, if_pos duplicate⟩
  · exact .inr ⟨duplicate, if_neg duplicate⟩

theorem Fresh.duplicate_iff (before : Arrivals) {now : Datetime} {s : PriceSnapshot}
    (valid : (svc.validator.validate now s).valid) :
    (svc.resultAfter before now s).reason = .duplicate ↔ svc.Within before s := by
  rcases fresh.ingest_after before valid with ⟨within_, same⟩ | ⟨outside, same⟩
  · rw [resultAfter, same]
    exact iff_of_true rfl within_
  · rw [resultAfter, same]
    exact iff_of_false nofun outside

theorem Fresh.dropsWithinWindow {ticks : Arrivals}
    (valid : ∀ tick ∈ ticks, (svc.validator.validate tick.1 tick.2).valid) : svc.DropsWithinWindow ticks where
  dropped before now s after split inside := by
    rcases fresh.ingest_after before (valid (now, s) (by simp [split])) with ⟨-, same⟩ | ⟨outside, -⟩
    · rw [resultAfter, same]
      exact ⟨rfl, rfl⟩
    · exact absurd inside outside
  kept before now s after split outside _ := by
    rcases fresh.ingest_after before (valid (now, s) (by simp [split])) with ⟨inside, -⟩ | ⟨-, same⟩
    · exact absurd inside outside
    · rw [resultAfter, same]
      exact ⟨rfl, fun bus => published_accept before bus s⟩
  stored s member := by
    rw [fresh.service_ingestEach]
    exact MarketDataService.count_prices member
  published before now s after split := by
    rcases fresh.ingest_after before (valid (now, s) (by simp [split])) with ⟨-, same⟩ | ⟨-, same⟩
    · exact .inl (by rw [same])
    · rw [same]
      cases bus : svc.eventBus with
      | true => exact .inr (published_accept before bus s)
      | false =>
        have off : (svc.ingestEach before).1.eventBus = false := by
          rw [ingestEach_fst, eventBus_foldl, bus]
        exact .inl (if_neg (by rw [off]; decide))

theorem Fresh.dropsRepeated {ticks : Arrivals} (window : 0 < svc.dedupWindow)
    (valid : ∀ tick ∈ ticks, (svc.validator.validate tick.1 tick.2).valid) (ordered : svc.InOrder ticks) :
    svc.DropsRepeated ticks := by
  intro before now s after split
  rw [fresh.duplicate_iff before (valid (now, s) (by simp [split]))]
  have apart : 0 < svc.dedupWindow * 1000000 := by omega
  rw [InOrder, split, List.map_append, List.pairwise_append] at ordered
  obtain ⟨among, -, across⟩ := ordered
  have earlier : ∀ t ∈ svc.accepted before, t.feed = s.feed →
      t.timestamp = s.timestamp ∨ t.timestamp + svc.dedupWindow * 1000000 ≤ s.timestamp :=
    fun t member => across t ((accepted_sublist svc before).subset member) s (by simp)
  constructor
  · rintro ⟨last, found, close⟩
    have own := List.mem_filter.mp (List.mem_of_getLast? found)
    have feed := of_decide_eq_true own.2
    refine ⟨last, own.1, feed, ?_⟩
    rcases earlier last own.1 feed with same | far
    · exact same
    · rw [abs_lt] at close
      exact absurd close.2 (by linarith)
  · rintro ⟨t, member, feed, same⟩
    have own : t ∈ (svc.accepted before).filter (·.feed = s.feed) :=
      List.mem_filter.mpr ⟨member, decide_eq_true feed⟩
    obtain ⟨last, found⟩ := Option.isSome_iff_exists.mp (List.getLast?_isSome.mpr (List.ne_nil_of_mem own))
    refine ⟨last, found, ?_⟩
    have lastOwn := List.mem_filter.mp (List.mem_of_getLast? found)
    have lastFeed := of_decide_eq_true lastOwn.2
    -- the last one is that tick, or came after it
    have between : t = last ∨ (t.timestamp = last.timestamp ∨
        t.timestamp + svc.dedupWindow * 1000000 ≤ last.timestamp) := by
      obtain ⟨others, eq⟩ := List.getLast?_eq_some_iff.mp found
      have pairs := (among.sublist (accepted_sublist svc before)).filter (·.feed = s.feed)
      rw [eq] at own pairs
      rcases List.mem_append.mp own with inside | only
      · exact .inr ((List.pairwise_append.mp pairs).2.2 t inside last (by simp) (feed.trans lastFeed.symm))
      · exact .inl (List.mem_singleton.mp only)
    have moment : last.timestamp = s.timestamp := by
      rcases earlier last lastOwn.1 lastFeed with at_once | before_it
      · exact at_once
      · rcases between with rfl | at_once | after_it
        · exact same
        · exact absurd before_it (by linarith)
        · exact absurd before_it (by linarith)
    rw [moment, sub_self, abs_zero]
    exact apart

end Runs

/-- A tick, so many microseconds after the epoch. -/
def tickAt (timestamp : Datetime) : PriceSnapshot where
  instrumentId := "AAPL"
  bid := 100
  ask := 101
  mid := 201 / 2
  timestamp := timestamp
  source := "simulator"

end IngestionService

/-! ## The latest price -/

namespace MarketDataService

/-- The latest price that is given is a tick of the last moment, and the one that the table gives. -/
def LatestIsLatest (m : MarketDataService) (arrivals : List PriceSnapshot) (instrumentId : String) : Prop :=
  ∀ tie, ∃ s, m.getLatestPrice tie instrumentId = some s ∧ s ∈ arrivals ∧ s.instrumentId = instrumentId ∧
    (∀ t ∈ arrivals, t.instrumentId = instrumentId → t.timestamp ≤ s.timestamp) ∧
      m.storedLatest tie instrumentId = some s.columns

/-- The instrument's last tick to come is of the last moment, and has the columns of its first tick of that
moment. -/
structure Current (arrivals : List PriceSnapshot) (instrumentId : String) (last : PriceSnapshot) : Prop where
  arrived : (arrivals.filter (·.instrumentId = instrumentId)).getLast? = some last
  newest : ∀ t ∈ arrivals, t.instrumentId = instrumentId → t.timestamp ≤ last.timestamp
  kept : ∀ first, arrivals.find? (·.key = last.key) = some first → first.columns = last.columns

section Latest

variable {arrivals : List PriceSnapshot} {instrumentId : String}

theorem mem_of_last {last : PriceSnapshot}
    (found : (arrivals.filter (·.instrumentId = instrumentId)).getLast? = some last) :
    last ∈ arrivals ∧ last.instrumentId = instrumentId := by
  have own := List.mem_filter.mp (List.mem_of_getLast? found)
  exact ⟨own.1, of_decide_eq_true own.2⟩

/-- The table gives the first tick of the last moment. -/
theorem storedLatest_eq {latest : PriceSnapshot} (member : latest ∈ arrivals) (own : latest.instrumentId = instrumentId)
    (last : ∀ t ∈ arrivals, t.instrumentId = instrumentId → t.timestamp ≤ latest.timestamp) :
    ∃ first, arrivals.find? (·.key = latest.key) = some first ∧
      ∀ tie, (received arrivals).storedLatest tie instrumentId = some first.columns := by
  obtain ⟨first, found, key⟩ := find_of_mem member
  have row : first.columns ∈ (received arrivals).prices.filter (·.instrumentId = instrumentId) := by
    rw [List.mem_filter, decide_eq_true_iff]
    exact ⟨columns_mem_prices found, (congrArg Prod.snd key).trans own⟩
  refine ⟨first, found, fun tie => ?_⟩
  unfold storedLatest
  cases given : latestRow (·.timestamp) ((received arrivals).prices.filter (·.instrumentId = instrumentId)) tie with
  | none =>
    rw [latestRow_eq_none_iff] at given
    rw [given] at row
    cases row
  | some r =>
    obtain ⟨inside, newest⟩ := mem_latestRows.mp (mem_of_latestRow given)
    obtain ⟨stored, mine⟩ := List.mem_filter.mp inside
    have mine' : r.instrumentId = instrumentId := of_decide_eq_true mine
    obtain ⟨s, first_of_key, rfl⟩ := mem_prices.mp stored
    have before : s.columns.timestamp ≤ latest.timestamp := last s (List.mem_of_find?_eq_some first_of_key) mine'
    have after : latest.timestamp ≤ s.columns.timestamp := by
      have moment : first.columns.timestamp = latest.timestamp := congrArg Prod.fst key
      rw [← moment]
      exact newest first.columns row
    have same : s.columns.key = latest.key := Prod.ext (le_antisymm before after) (mine'.trans own.symm)
    rw [same, found] at first_of_key
    rw [Option.some.inj first_of_key]

theorem getLatestPrice_eq {last : PriceSnapshot}
    (found : (arrivals.filter (·.instrumentId = instrumentId)).getLast? = some last) (tie : Nat) :
    (received arrivals).getLatestPrice tie instrumentId = some last := by
  rw [getLatestPrice, lookup_latest, found]

theorem Current.latestIsLatest {last : PriceSnapshot} (current : Current arrivals instrumentId last) :
    LatestIsLatest (received arrivals) arrivals instrumentId := by
  intro tie
  obtain ⟨member, own⟩ := mem_of_last current.arrived
  obtain ⟨first, found, stored⟩ := storedLatest_eq member own current.newest
  refine ⟨last, getLatestPrice_eq current.arrived tie, member, own, current.newest, ?_⟩
  rw [stored, current.kept first found]

/-- Where no two ticks are stored alike, the last moment has one tick. -/
theorem Current.only {last : PriceSnapshot} (current : Current arrivals instrumentId last)
    (distinct : (arrivals.map (·.columns)).Nodup) {t : PriceSnapshot} (member : t ∈ arrivals) (same : t.key = last.key) :
    t = last := by
  obtain ⟨-, own⟩ := mem_of_last current.arrived
  have mine : t ∈ arrivals.filter (·.instrumentId = instrumentId) :=
    List.mem_filter.mpr ⟨member, decide_eq_true ((congrArg Prod.snd same).trans own)⟩
  obtain ⟨before, split⟩ := List.getLast?_eq_some_iff.mp current.arrived
  rw [split, List.mem_append, List.mem_singleton] at mine
  refine mine.resolve_left fun earlier => ?_
  -- the first tick of the moment comes before the last one, and has its columns
  have inside : (before.find? (·.key = last.key)).isSome := by
    rw [List.find?_isSome]
    exact ⟨t, earlier, decide_eq_true same⟩
  obtain ⟨first, found⟩ := Option.isSome_iff_exists.mp inside
  have narrowed : (arrivals.filter (·.instrumentId = instrumentId)).find? (·.key = last.key) =
      arrivals.find? (·.key = last.key) := by
    rw [List.find?_filter]
    congr 1
    funext s
    rw [decide_eq_decide, decide_eq_true_iff, decide_eq_true_iff, and_iff_right_iff_imp]
    exact fun key => (congrArg Prod.snd key).trans own
  rw [split, List.find?_append, found, Option.some_or] at narrowed
  have columns := current.kept first narrowed.symm
  have apart : ((before ++ [last]).map (·.columns)).Nodup := split ▸ distinct.sublist (List.filter_sublist.map _)
  rw [List.map_append, List.nodup_append] at apart
  exact apart.2.2 _ (List.mem_map_of_mem (List.mem_of_find?_eq_some found)) _ (by simp) columns

/-- The latest price is the latest just where the last tick of the instrument to come is. In any two such
orders of the same ticks, it is of one moment, and stored alike where no two ticks are. -/
theorem latest_iff (arrived : ∃ t ∈ arrivals, t.instrumentId = instrumentId) :
    (LatestIsLatest (received arrivals) arrivals instrumentId ↔ ∃ last, Current arrivals instrumentId last) ∧
      ∀ permuted last last', arrivals.Perm permuted → Current arrivals instrumentId last →
        Current permuted instrumentId last' → ∀ tie tie', ∃ s s',
          (received arrivals).getLatestPrice tie instrumentId = some s ∧
            (received permuted).getLatestPrice tie' instrumentId = some s' ∧ s.timestamp = s'.timestamp ∧
            ((arrivals.map (·.columns)).Nodup → s.columns = s'.columns) := by
  constructor
  · constructor
    · intro property
      obtain ⟨t, inside, mine⟩ := arrived
      have nonempty : arrivals.filter (·.instrumentId = instrumentId) ≠ [] :=
        List.ne_nil_of_mem (List.mem_filter.mpr ⟨inside, decide_eq_true mine⟩)
      obtain ⟨last, found⟩ := Option.isSome_iff_exists.mp (List.getLast?_isSome.mpr nonempty)
      obtain ⟨s, given, member, own, latest, stored⟩ := property 0
      rw [getLatestPrice_eq found, Option.some.injEq] at given
      subst given
      obtain ⟨first, found', stored'⟩ := storedLatest_eq member own latest
      have same : first.columns = last.columns := Option.some.inj ((stored' 0).symm.trans stored)
      refine ⟨last, found, latest, ?_⟩
      intro other found''
      rw [found'] at found''
      rw [← Option.some.inj found'', same]
    · rintro ⟨last, current⟩
      exact current.latestIsLatest
  · intro permuted last last' perm current current' tie tie'
    refine ⟨last, last', getLatestPrice_eq current.arrived tie, getLatestPrice_eq current'.arrived tie', ?_⟩
    obtain ⟨member, own⟩ := mem_of_last current.arrived
    obtain ⟨member', own'⟩ := mem_of_last current'.arrived
    have moment := le_antisymm (current'.newest last (perm.mem_iff.mp member) own)
      (current.newest last' (perm.mem_iff.mpr member') own')
    refine ⟨moment, fun distinct => ?_⟩
    rw [current.only distinct (perm.mem_iff.mpr member') (Prod.ext moment.symm (own'.trans own.symm))]

end Latest

theorem latest_iff_two : LatestIsLatest (received [IngestionService.tickAt 0, IngestionService.tickAt 1000000])
    [IngestionService.tickAt 0, IngestionService.tickAt 1000000] "AAPL" :=
  (latest_iff ⟨_, List.mem_cons_self, rfl⟩).1.mpr
    ⟨IngestionService.tickAt 1000000, by decide +kernel, by decide +kernel, by decide +kernel⟩

/-- A tick that comes late takes the place of the latest. -/
theorem late_tick_cached :
    ¬ ∀ (arrivals : List PriceSnapshot) (instrumentId : String), (∃ t ∈ arrivals, t.instrumentId = instrumentId) →
      LatestIsLatest (received arrivals) arrivals instrumentId := by
  intro latest
  obtain ⟨s, given, -, -, last, -⟩ :=
    latest [IngestionService.tickAt 1000000, IngestionService.tickAt 0] "AAPL" ⟨_, List.mem_cons_self, rfl⟩ 0
  have cached : (received [IngestionService.tickAt 1000000, IngestionService.tickAt 0]).getLatestPrice 0 "AAPL" =
      some (IngestionService.tickAt 0) := by decide +kernel
  rw [cached, Option.some.injEq] at given
  have before := last (IngestionService.tickAt 1000000) List.mem_cons_self rfl
  rw [← given] at before
  exact absurd before (by decide)

end MarketDataService

end MiniHedge.MarketData
