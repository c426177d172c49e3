import TestChain.Proofs.Block.Solve
import TestChain.Proofs.Store.Contents

/-! Stores and their histories.

A store is asked one thing after another (`StoreCall`), and gives an answer each time. What it
answers is settled by the calls before: a hash reads as the record last put under it, and the head
as the record that the hash of the last head reads as (`History.answer`). A first record counts as
put, and as the head, before all calls.

Every store that keeps contents answers so (`Keeps.answers_eq`), and new stores of both kinds do.
So nothing that is asked tells a store in memory from one in a new database. -/
namespace TestChain

/-- What a store can be asked. -/
inductive StoreCall
  | put (r : ChainRecord)
  | setHead (r : ChainRecord)
  | get (hash : Digest)
  | head
  | previous (r : ChainRecord)

/-- What a store answers when it does not fail. -/
inductive StoreAnswer
  | done
  | lookup (found : Option ChainRecord)
  | record (r : ChainRecord)
  deriving DecidableEq

namespace StoreCall
variable {σ : Type} [BlockStore σ]

/-- The answer to a write, and the store after it. A store that refuses a write is left as it was.
-/
def written (s : σ) : Except ChainError σ → Except ChainError StoreAnswer × σ
  | .ok s' => (.ok .done, s')
  | .error cause => (.error cause, s)

/-- The answer to a call, and the store after it. -/
def perform (s : σ) : StoreCall → Except ChainError StoreAnswer × σ
  | put r => written s (BlockStore.put s r)
  | setHead r => written s (BlockStore.setHead s r)
  | get hash => ((BlockStore.get s hash).map .lookup, s)
  | head => ((BlockStore.head s).map .record, s)
  | previous r => ((r.previous? s).map .lookup, s)

/-- The answers to calls, one after the other. -/
def answers (s : σ) : List StoreCall → List (Except ChainError StoreAnswer)
  | [] => []
  | call :: rest => (call.perform s).1 :: answers (call.perform s).2 rest

/-- The record that a call puts. -/
def put? : StoreCall → Option ChainRecord
  | put r => some r
  | _ => none

/-- The record that a call makes the head. -/
def setHead? : StoreCall → Option ChainRecord
  | setHead r => some r
  | _ => none

end StoreCall

/-! ### What histories settle -/

/-- A first record, and the calls since there was nothing but that. -/
structure History where
  first : ChainRecord
  calls : List StoreCall

namespace History

/-- The history with one more call. -/
def call (h : History) (call : StoreCall) : History := { h with calls := h.calls ++ [call] }

/-- The records put, the last one last. -/
def puts (h : History) : List ChainRecord := h.first :: h.calls.filterMap StoreCall.put?

/-- The records made the head, the last one last. -/
def heads (h : History) : List ChainRecord := h.first :: h.calls.filterMap StoreCall.setHead?

/-- The record last put under a hash. -/
def lastPut? (h : History) (hash : Digest) : Option ChainRecord :=
  (h.puts.filter (·.hash = hash)).getLast?

/-- The record last made the head, which need not have been put. -/
def lastHead (h : History) : ChainRecord := h.heads.getLast (List.cons_ne_nil _ _)

/-- The record that a hash reads as, or that there is none. -/
def found (hash : Digest) : Option ChainRecord → Except ChainError ChainRecord
  | some r => .ok r
  | none => .error (.notFound hash.hex)

/-- The answer to a call after the history. -/
def answer (h : History) : StoreCall → Except ChainError StoreAnswer
  | .put _ | .setHead _ => .ok .done
  | .get hash => .ok (.lookup (h.lastPut? hash))
  | .head => (found h.lastHead.hash (h.lastPut? h.lastHead.hash)).map .record
  | .previous r => .ok (.lookup (h.lastPut? r.header.previous))

/-- What a store holds after the history. -/
def contents (h : History) : Contents := ⟨h.lastPut?, h.lastHead.hash⟩

/-- The answers to calls from the first on, each settled by those before it. -/
def answers (first : ChainRecord) (calls : List StoreCall) :
    List (Except ChainError StoreAnswer) :=
  calls.mapIdx fun i call => answer ⟨first, calls.take i⟩ call

variable (h : History)

theorem puts_call (call : StoreCall) : (h.call call).puts = h.puts ++ call.put?.toList := by
  rw [puts, History.call, List.filterMap_append]
  cases hput : call.put? <;> simp [puts, hput]

theorem heads_call (call : StoreCall) : (h.call call).heads = h.heads ++ call.setHead?.toList := by
  rw [heads, History.call, List.filterMap_append]
  cases hset : call.setHead? <;> simp [heads, hset]

/-! ### What is held after a history -/

theorem found_head (c : Contents) : found c.head (c.record? c.head) = c.headRecord := by
  rw [Contents.headRecord]
  cases c.record? c.head <;> rfl

theorem contents_first (first : ChainRecord) : contents ⟨first, []⟩ = .seeded first := by
  have hlast (hash : Digest) :
      lastPut? ⟨first, []⟩ hash = if hash = first.hash then some first else none := by
    by_cases hhash : hash = first.hash
    · simp [lastPut?, puts, hhash]
    · simp [lastPut?, puts, hhash, Ne.symm hhash]
  exact congrArg (Contents.mk · first.hash) (funext hlast)

/-- A record that is put is the last one under its hash. -/
theorem lastPut?_put (r : ChainRecord) (hash : Digest) :
    (h.call (.put r)).lastPut? hash = if hash = r.hash then some r else h.lastPut? hash := by
  rw [lastPut?, puts_call, List.filter_append, StoreCall.put?, Option.toList_some]
  by_cases hhash : hash = r.hash
  · simp [hhash]
  · simp [lastPut?, hhash, Ne.symm hhash]

theorem answers_put_get (first r : ChainRecord) :
    answers first [.put r, .get r.hash] = [.ok .done, .ok (.lookup (some r))] := by
  have hlast := lastPut?_put ⟨first, []⟩ r r.hash
  rw [if_pos rfl] at hlast
  rw [← hlast]
  rfl

theorem lastHead_setHead (r : ChainRecord) : (h.call (.setHead r)).lastHead = r := by
  have hheads : (h.call (.setHead r)).heads = h.heads ++ [r] := h.heads_call (.setHead r)
  simp only [lastHead, hheads, List.getLast_concat]

theorem lastPut?_of_put?_eq_none {call : StoreCall} (hput : call.put? = none) :
    (h.call call).lastPut? = h.lastPut? := by
  funext hash
  rw [lastPut?, puts_call, hput, Option.toList_none, List.append_nil, lastPut?]

theorem lastHead_of_setHead?_eq_none {call : StoreCall} (hset : call.setHead? = none) :
    (h.call call).lastHead = h.lastHead := by
  have hheads : (h.call call).heads = h.heads := by
    rw [heads_call, hset, Option.toList_none, List.append_nil]
  simp only [lastHead, hheads]

theorem contents_put (r : ChainRecord) : (h.call (.put r)).contents = h.contents.put r := by
  rw [contents, h.lastHead_of_setHead?_eq_none rfl, funext (h.lastPut?_put r)]
  rfl

theorem contents_setHead (r : ChainRecord) :
    (h.call (.setHead r)).contents = h.contents.setHead r := by
  rw [contents, h.lastPut?_of_put?_eq_none rfl, lastHead_setHead]
  rfl

/-- Reading leaves what is held. -/
theorem contents_read {call : StoreCall} (hput : call.put? = none) (hset : call.setHead? = none) :
    (h.call call).contents = h.contents := by
  rw [contents, h.lastPut?_of_put?_eq_none hput, h.lastHead_of_setHead?_eq_none hset]
  rfl

end History

/-! ### Stores that hold what their histories settle -/

namespace Keeps
variable {σ : Type} [BlockStore σ] {holds : σ → Contents → Prop} (hk : Keeps holds) {s : σ}
  {h : History}
include hk

/-- **One call** is answered as the history says, and is part of the history then. -/
theorem perform_spec (hs : holds s h.contents) (call : StoreCall) :
    (call.perform s).1 = h.answer call ∧ holds (call.perform s).2 (h.call call).contents := by
  cases call with
  | put r =>
    obtain ⟨s', hput, hs', -⟩ := hk.put hs r
    rw [StoreCall.perform, hput, h.contents_put r]
    exact ⟨rfl, hs'⟩
  | setHead r =>
    obtain ⟨s', hset, hs', -⟩ := hk.setHead hs r
    rw [StoreCall.perform, hset, h.contents_setHead r]
    exact ⟨rfl, hs'⟩
  | get hash =>
    rw [StoreCall.perform, hk.get hs, h.contents_read rfl rfl]
    exact ⟨rfl, hs⟩
  | head =>
    rw [StoreCall.perform, hk.head hs, ← History.found_head, h.contents_read rfl rfl]
    exact ⟨rfl, hs⟩
  | previous r =>
    rw [StoreCall.perform, ChainRecord.previous?, hk.get hs, h.contents_read rfl rfl]
    exact ⟨rfl, hs⟩

/-- **Any run of calls** is answered as the history says. -/
theorem answers_eq (hs : holds s h.contents) (calls : List StoreCall) :
    StoreCall.answers s calls =
      calls.mapIdx fun i call => History.answer ⟨h.first, h.calls ++ calls.take i⟩ call := by
  induction calls generalizing s h with
  | nil => rfl
  | cons call rest ih =>
    obtain ⟨hanswer, hs'⟩ := hk.perform_spec hs call
    rw [StoreCall.answers, hanswer, ih hs', List.mapIdx_cons, List.take_zero, List.append_nil]
    refine congrArg _ (congrArg (List.mapIdx · rest) ?_)
    funext i call'
    rw [List.take_succ_cons, History.call, List.append_assoc, List.singleton_append]

/-- A store that holds a first record and nothing else. -/
theorem answers_eq_of_seeded {first : ChainRecord} (hs : holds s (.seeded first))
    (calls : List StoreCall) : StoreCall.answers s calls = History.answers first calls := by
  rw [← History.contents_first] at hs
  exact hk.answers_eq hs calls

end Keeps

/-! ### New stores -/

/-- A first block is looked for where its difficulty is in reach. -/
theorem Block.genesis_eq (params : NetworkParams) :
    genesis params =
      if params.Reachable then (genesisTemplate params).solve
      else .error (.error (.configuration (.difficulty params.genesisDifficulty))) := by
  rw [genesis, NetworkParams.validate]
  split <;> rfl

/-- **Nothing that is asked tells the two kinds of store apart.** For any parameters, a store in
memory and one in a new database are made alike or fail alike, as they do where the difficulty is
out of reach. And both answer every run of calls as the history of the run says: a hash reads as the
record last put under it, the first block counting as put before, and the head as what the hash of
the last head reads as, or it is not found. -/
theorem StoreCall.answers_new (params : NetworkParams) :
    (match Block.genesis params with
      | .error failure => MemoryStore.new params = .error failure ∧
          (DatabaseStore.openIn params .empty).1 = .error failure
      | .ok b => ∃ m d, MemoryStore.new params = .ok m ∧
          (DatabaseStore.openIn params .empty).1 = .ok d ∧
          ∀ calls, answers m calls = History.answers (.genesis b) calls ∧
            answers d calls = History.answers (.genesis b) calls) ∧
      Block.genesis params =
        if params.Reachable then (Block.genesisTemplate params).solve
        else .error (.error (.configuration (.difficulty params.genesisDifficulty))) := by
  refine ⟨?_, Block.genesis_eq params⟩
  rw [MemoryStore.new_eq, DatabaseStore.openIn_empty]
  cases Block.genesis params with
  | error failure => exact ⟨rfl, rfl⟩
  | ok b =>
    refine ⟨_, _, rfl, rfl, fun calls => ⟨?_, ?_⟩⟩
    · exact MemoryStore.keeps.answers_eq_of_seeded (MemoryStore.holds_seeded _ _) calls
    · have hseeded : DatabaseStore.Holds ⟨params, .seeded params.network (.genesis b)⟩
          (.seeded (.genesis b)) := Database.holds_seeded _ _
      exact DatabaseStore.keeps.answers_eq_of_seeded hseeded calls

/-- At difficulty zero both stores are made, and give back any record that was put. -/
theorem StoreCall.answers_new_plain :
    ∃ m d, MemoryStore.new ⟨.unittest, 0, 0⟩ = .ok m ∧
      (DatabaseStore.openIn ⟨.unittest, 0, 0⟩ .empty).1 = .ok d ∧
      ∀ r, answers m [put r, get r.hash] = [.ok .done, .ok (.lookup (some r))] ∧
        answers d [put r, get r.hash] = [.ok .done, .ok (.lookup (some r))] := by
  have hnew := (answers_new ⟨.unittest, 0, 0⟩).1
  rw [Block.genesis_of_difficulty rfl] at hnew
  obtain ⟨m, d, hm, hd, hanswers⟩ := hnew
  refine ⟨m, d, hm, hd, fun r => ?_⟩
  rw [← History.answers_put_get]
  exact hanswers _

end TestChain
