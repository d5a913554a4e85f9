import MiniHedge.Audit.Verifier
import Mathlib.Data.List.Induction

/-! Which changes of the stored rows the walk over the chain reveals.

The hash of a row is taken of its payload and of the hash before it. A change is
made without computing hashes again: a row keeps hashes that were stored, or has
one that is not its own.
-/

set_option autoImplicit false

namespace MiniHedge.Audit

open MiniHedge.Python MiniHedge.Library MiniHedge.Shared

section Tampering

variable (encoding : Encoding)

/-- `json.dumps` of a dict ends with a brace; a digest has none, and is not empty. -/
structure Encoding.Delimited : Prop where
  closes : ∀ payload, ∃ inner, (encoding.dumps payload).toList = inner ++ ['\x7d']
  plain : ∀ text, '\x7d' ∉ (encoding.sha256 text).toList
  nonempty : ∀ text, encoding.sha256 text ≠ ""

/-- The text that the hash of a row is taken of. -/
def AuditLogRecord.hashed (r : AuditLogRecord) : String :=
  encoding.dumps r.payload ++ r.prevHash.getD ""

/-- No two of the texts that are hashed have one hash. -/
def CollisionFree (rows : List AuditLogRecord) : Prop :=
  ∀ a ∈ rows, ∀ b ∈ rows, encoding.sha256 (a.hashed encoding) = encoding.sha256 (b.hashed encoding) →
    a.hashed encoding = b.hashed encoding

/-- What the chain covers of a row. -/
def AuditLogRecord.sealed (r : AuditLogRecord) : String × Option String × String :=
  (encoding.dumps r.payload, r.prevHash, r.entryHash)

/-- A row whose hashes were not computed for it. -/
def NotRecomputed (log : AuditLog) (r : AuditLogRecord) : Prop :=
  (∃ stored ∈ log, r.prevHash = stored.prevHash ∧ r.entryHash = stored.entryHash) ∨
    r.entryHash ≠ encoding.sha256 (r.hashed encoding)

/-- Of the first `limit` rows, one is not the row that was written at its place, as
far as the chain covers it. -/
def Shows (limit : Nat) (log records : List AuditLogRecord) : Prop :=
  ∃ k < limit, ∃ r, records[k]? = some r ∧
    ∀ written, log[k]? = some written → r.sealed encoding ≠ written.sealed encoding

/-! ## Links -/

variable {encoding} {prevHash : String} {log : AuditLog}

theorem getD_orNone (text : String) : (orNone text).getD "" = text := by
  unfold orNone
  split
  · rename_i empty
    exact empty.symm
  · rfl

theorem orNone_injective {a b : String} (same : orNone a = orNone b) : a = b := by
  rw [← getD_orNone a, ← getD_orNone b, same]

theorem hashed_eq {r : AuditLogRecord} (follows : r.prevHash = orNone prevHash) :
    r.hashed encoding = encoding.dumps r.payload ++ prevHash := by
  rw [AuditLogRecord.hashed, follows, getD_orNone]

/-- The texts of two payloads, each with something that has no brace after it. -/
theorem Encoding.Delimited.split (delimited : encoding.Delimited) {p q : Payload} {a b : String}
    (plain : '\x7d' ∉ a.toList) (plain' : '\x7d' ∉ b.toList)
    (same : encoding.dumps p ++ a = encoding.dumps q ++ b) : a = b := by
  obtain ⟨first, closed⟩ := delimited.closes p
  obtain ⟨second, closed'⟩ := delimited.closes q
  have lists := congrArg String.toList same
  simp only [String.toList_append, closed, closed', List.append_assoc, List.singleton_append] at lists
  exact String.toList_inj.mp (split_last plain plain' lists).2

theorem linked_upTo {before after : List AuditLogRecord} {r : AuditLogRecord}
    (linked : Linked encoding prevHash (before ++ r :: after)) :
    r.entryHash = computeHash encoding (encoding.dumps r.payload) (lastHash prevHash before) ∧
      r.prevHash = orNone (lastHash prevHash before) := by
  induction before generalizing prevHash with
  | nil => exact ⟨linked.1, linked.2.1⟩
  | cons first rest ih => exact ih linked.2.2

@[simp] theorem lastHash_concat (before : List AuditLogRecord) (r : AuditLogRecord) :
    lastHash prevHash (before ++ [r]) = r.entryHash := by
  simp [lastHash]

theorem lastHash_plain (delimited : encoding.Delimited) {before after : List AuditLogRecord}
    (linked : Linked encoding "" (before ++ after)) :
    '\x7d' ∉ (lastHash "" before).toList := by
  rcases List.eq_nil_or_concat' before with rfl | ⟨rest, r, rfl⟩
  · simp [lastHash]
  · rw [List.append_assoc] at linked
    rw [lastHash_concat, (linked_upTo linked).1]
    exact delimited.plain _

/-- The hash of a row tells its place. -/
theorem lastHash_injective (delimited : encoding.Delimited) (linked : Linked encoding "" log)
    (collisionFree : CollisionFree encoding log) {a b a' b' : List AuditLogRecord}
    (left : log = a ++ a') (right : log = b ++ b') (same : lastHash "" a = lastHash "" b) :
    a = b := by
  have nonempty : ∀ {c c' : List AuditLogRecord} {r : AuditLogRecord}, log = c ++ [r] ++ c' →
      lastHash "" (c ++ [r]) ≠ "" := by
    intro c c' r split
    rw [split, List.append_assoc] at linked
    rw [lastHash_concat, (linked_upTo linked).1]
    exact delimited.nonempty _
  induction a using List.reverseRecOn generalizing b a' b' with
  | nil =>
    rcases List.eq_nil_or_concat' b with rfl | ⟨rest, r, rfl⟩
    · rfl
    · exact absurd same.symm (nonempty right)
  | append_singleton rest r ih =>
    rcases List.eq_nil_or_concat' b with rfl | ⟨rest', r', rfl⟩
    · exact absurd same (nonempty left)
    · have first : log = rest ++ (r :: a') := by simpa using left
      have second : log = rest' ++ (r' :: b') := by simpa using right
      have one := linked_upTo (first ▸ linked)
      have other := linked_upTo (second ▸ linked)
      rw [lastHash_concat, lastHash_concat] at same
      have texts := collisionFree r (by simp [first]) r' (by simp [second])
      rw [hashed_eq one.2, hashed_eq other.2] at texts
      have previous := delimited.split (lastHash_plain delimited (first ▸ linked))
        (lastHash_plain delimited (second ▸ linked))
        (texts (by rw [computeHash] at one other; rw [← one.1, ← other.1, same]))
      obtain rfl := ih first second previous
      have rows : r :: a' = r' :: b' := List.append_cancel_left (first.symm.trans second)
      rw [(List.cons.inj rows).1]

/-! ## Rows with hashes of their own or of others -/

/-- Rows that were not hashed again form a chain only where they are, as far as the
chain covers them, the rows that were written. -/
theorem sealed_of_linked (delimited : encoding.Delimited) (linked : Linked encoding "" log)
    {records before after : List AuditLogRecord}
    (collisionFree : CollisionFree encoding (log ++ records))
    (kept : ∀ r ∈ records, NotRecomputed encoding log r) (split : log = before ++ after)
    (chained : Linked encoding (lastHash "" before) records) :
    records.map (·.sealed encoding) <+: after.map (·.sealed encoding) := by
  induction records generalizing before after with
  | nil => exact List.nil_prefix
  | cons r rest ih =>
    obtain ⟨hashes, follows, chained⟩ := chained
    rcases kept r List.mem_cons_self with ⟨stored, member, prevKept, entryKept⟩ | otherwise
    · obtain ⟨a, a', place⟩ := List.append_of_mem member
      obtain ⟨hashes', follows'⟩ := linked_upTo (place ▸ linked)
      have same : lastHash "" before = lastHash "" a :=
        orNone_injective (follows.symm.trans (prevKept.trans follows'))
      have within : CollisionFree encoding log := fun x inside y inside' =>
        collisionFree x (List.mem_append_left _ inside) y (List.mem_append_left _ inside')
      obtain rfl := lastHash_injective delimited linked within split place same
      obtain rfl := List.append_cancel_left (split.symm.trans place)
      have texts : r.hashed encoding = stored.hashed encoding := by
        refine collisionFree r (by simp) stored (List.mem_append_left _ member) ?_
        rw [hashed_eq follows, hashed_eq follows']
        rw [computeHash] at hashes hashes'
        rw [← hashes, ← hashes', entryKept]
      have text : encoding.dumps r.payload = encoding.dumps stored.payload := by
        rw [hashed_eq follows, hashed_eq follows'] at texts
        exact String.append_left_inj _ |>.mp texts
      have covered : r.sealed encoding = stored.sealed encoding := by
        rw [AuditLogRecord.sealed, text, prevKept, entryKept, AuditLogRecord.sealed]
      rw [List.map_cons, List.map_cons, covered]
      refine (List.prefix_cons_inj _).mpr (@ih (before ++ [stored]) _ ?_ ?_ ?_ ?_)
      · intro x inside y inside'
        have wider : ∀ z ∈ log ++ rest, z ∈ log ++ r :: rest := by
          intro z
          simp only [List.mem_append, List.mem_cons]
          tauto
        exact collisionFree x (wider x inside) y (wider y inside')
      · exact fun x inside => kept x (List.mem_cons_of_mem r inside)
      · simpa using split
      · rw [lastHash_concat, ← entryKept]
        exact chained
    · refine absurd ?_ otherwise
      rw [hashed_eq follows]
      exact hashes

theorem linked_of_sealed {records : List AuditLogRecord} (linked : Linked encoding prevHash log)
    (covered : records.map (·.sealed encoding) <+: log.map (·.sealed encoding)) :
    Linked encoding prevHash records := by
  induction records generalizing prevHash log with
  | nil => trivial
  | cons r rest ih =>
    cases log with
    | nil => simp at covered
    | cons written log =>
      rw [List.map_cons, List.map_cons, List.cons_prefix_cons] at covered
      obtain ⟨same, covered⟩ := covered
      simp only [AuditLogRecord.sealed, Prod.mk.injEq] at same
      obtain ⟨text, prevKept, entryKept⟩ := same
      refine ⟨?_, prevKept.trans linked.2.1, ?_⟩
      · rw [entryKept, text, linked.1]
      · exact entryKept ▸ ih linked.2.2 covered

theorem shows_iff (limit : Nat) (records : List AuditLogRecord) :
    Shows encoding limit log records ↔
      ¬ (records.take limit).map (·.sealed encoding) <+: log.map (·.sealed encoding) := by
  rw [List.prefix_iff_getElem?]
  push Not
  constructor
  · rintro ⟨k, below, r, found, differs⟩
    obtain ⟨inside, rfl⟩ := List.getElem?_eq_some_iff.mp found
    refine ⟨k, by simp [below, inside], ?_⟩
    intro same
    rw [List.getElem?_map] at same
    obtain ⟨written, place, covered⟩ := Option.map_eq_some_iff.mp same
    exact differs written place (by simpa using covered.symm)
  · rintro ⟨k, inside, differs⟩
    rw [List.length_map, List.length_take] at inside
    refine ⟨k, by omega, records[k], List.getElem?_eq_getElem _, fun written place same => ?_⟩
    exact differs (by simp [place, same])

/-- What is reported of the rows after a change. -/
theorem revealed_iff {calls : List AuditCall} {turns : List (Processes.Turn Input)}
    {final : Processes.State AuditLog Writer} (delimited : encoding.Delimited)
    (serial : (writers encoding).system.Along (Processes.When (Serial encoding))
      ⟨[], calls.map ({ call := · })⟩ turns)
    (ran : (writers encoding).system.run ⟨[], calls.map ({ call := · })⟩ turns = some final)
    {changed : AuditLog} {records : List AuditLogRecord} (answered : InOrder changed records)
    (collisionFree : CollisionFree encoding (final.shared ++ records))
    (kept : ∀ r ∈ changed, NotRecomputed encoding final.shared r) (limit : Nat) :
    (verify encoding limit records).isValid = false ↔
      Shows encoding limit final.shared records := by
  have linked := (intact_of_serial serial ran).linked
  have fewer : ∀ r ∈ records.take limit, r ∈ records := fun _ => List.mem_of_mem_take
  rw [shows_iff, ← Bool.not_eq_true, verify, walk_valid, not_iff_not]
  constructor
  · intro chained
    refine sealed_of_linked delimited linked ?_ ?_ (List.nil_append _).symm chained
    · intro x inside y inside'
      have wider : ∀ z ∈ final.shared ++ records.take limit, z ∈ final.shared ++ records := by
        intro z
        simp only [List.mem_append]
        exact Or.imp_right (fewer z)
      exact collisionFree x (wider x inside) y (wider y inside')
    · exact fun r inside => kept r (answered.1.mem_iff.mp (fewer r inside))
  · exact linked_of_sealed linked

end Tampering

section TwoLogins

theorem emptyPayloads_delimited : emptyPayloads.Delimited where
  closes _ := ⟨['\x7b'], by simp [emptyPayloads]⟩
  plain text := by
    unfold emptyPayloads
    dsimp only
    split <;> decide +kernel
  nonempty text := by
    unfold emptyPayloads
    dsimp only
    split <;> decide +kernel

/-- The rows of the two logins. -/
def loginRows : AuditLog :=
  [(login "0").record emptyPayloads "" 1,
    (login "1").record emptyPayloads (emptyPayloads.sha256 "\x7b\x7d") 3]

theorem loginRows_ran : (writers emptyPayloads).system.run twoLogins oneAfterTheOther =
    some ⟨loginRows, [login "0", login "1"].map fun call => { call, stage := .ended }⟩ := by
  decide +kernel

theorem loginRows_serial : (writers emptyPayloads).system.Along
    (Processes.When (Serial emptyPayloads)) twoLogins oneAfterTheOther := by
  decide +kernel

theorem revealed_first_deleted :
    (verify emptyPayloads 10000 (loginRows.drop 1)).isValid = false := by
  have answered : InOrder (loginRows.drop 1) (loginRows.drop 1) :=
    ⟨.refl _, List.pairwise_singleton _ _⟩
  refine (revealed_iff emptyPayloads_delimited loginRows_serial loginRows_ran answered
    ?_ ?_ 10000).mpr ?_
  · unfold CollisionFree
    decide +kernel
  · unfold NotRecomputed
    decide +kernel
  · exact ⟨0, by decide, _, rfl, fun written place => by cases place; decide +kernel⟩

/-- The first login as somebody else's. -/
def otherActor : AuditLog := loginRows.modify 0 fun r => { r with actorId := some "other" }

/-- The chain covers no actor: the row of another is not revealed. -/
theorem other_actor_unrevealed :
    ∃ final, (writers emptyPayloads).system.Along (Processes.When (Serial emptyPayloads))
        twoLogins oneAfterTheOther ∧
      (writers emptyPayloads).system.run twoLogins oneAfterTheOther = some final ∧
      otherActor = final.shared.modify 0 (fun r => { r with actorId := some "other" }) ∧
      ¬ otherActor.Perm final.shared ∧ InOrder otherActor otherActor ∧
      emptyPayloads.Delimited ∧ CollisionFree emptyPayloads (final.shared ++ otherActor) ∧
      (∀ r ∈ otherActor, NotRecomputed emptyPayloads final.shared r) ∧
      (verify emptyPayloads 10000 otherActor).isValid = true := by
  refine ⟨_, loginRows_serial, loginRows_ran, rfl, by decide +kernel, ⟨.refl _, by decide +kernel⟩,
    emptyPayloads_delimited, ?_, ?_, by decide +kernel⟩
  · unfold CollisionFree
    decide +kernel
  · unfold NotRecomputed
    decide +kernel

end TwoLogins

end MiniHedge.Audit
