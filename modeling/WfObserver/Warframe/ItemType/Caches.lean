import WfObserver.Warframe.ItemType

/-!
# The caches of strings and item paths are transparent

A cache holds what an uncached resolution returns (`StringTokenCache.Sound`, `Resolver.Sound`), so over one
state of the target every resolution of a run returns what it would return on its own (`run_transparent`).
-/

namespace WfObserver
namespace Warframe

open ProviderSdk Stateful Fallible

namespace StringPool

/-- The strings kept are those of their tokens, and they are counted. -/
structure StringTokenCache.Sound (reader : TargetReader) (cache : StringTokenCache) : Prop where
  values : ∀ pool token value, cache.values.get? (toLex (pool, token)) = some value →
    readToken reader pool token = .ok value
  decodedBytes : cache.decodedBytes = cache.values.sum fun _ value => value.utf8ByteSize
  bytes : cache.decodedBytes ≤ maxDecodedBytes
  size : cache.values.size ≤ maxStringTokens

variable {reader : TargetReader}

theorem StringTokenCache.Sound.empty : StringTokenCache.Sound reader default where
  values _ _ _ h := nomatch h
  decodedBytes := rfl
  bytes := Nat.zero_le _
  size := Nat.zero_le _

theorem StringTokenCache.Sound.insert {cache : StringTokenCache} (h : cache.Sound reader)
    {pool token : Nat} {value : String} (hvalue : readToken reader pool token = .ok value)
    (hnew : cache.values.get? (toLex (pool, token)) = none) (hsize : cache.values.size < maxStringTokens)
    (hbytes : cache.decodedBytes + value.utf8ByteSize ≤ maxDecodedBytes) :
    StringTokenCache.Sound reader {
      values := cache.values.insert (toLex (pool, token)) value
      decodedBytes := cache.decodedBytes + value.utf8ByteSize } where
  values pool' token' value' hget := by
    rw [OrdMap.get?_insert] at hget
    split at hget
    · rename_i hkey
      cases hkey
      cases hget
      exact hvalue
    · exact h.values pool' token' value' hget
  decodedBytes := by
    rw [OrdMap.sum_insert, OrdMap.erase_absent hnew, h.decodedBytes, Nat.add_comm]
  bytes := hbytes
  size := (OrdMap.size_insert_le _ _ _).trans hsize

theorem StringTokenCache.resolve_answers (pool token : Nat) :
    Answers (StringTokenCache.Sound reader) (StringTokenCache.resolve reader pool token)
      (readToken reader pool token) := by
  intro cache hcache
  unfold resolve
  rw [runFrom_bind, runFrom_get]
  dsimp only
  cases hget : cache.values.get? (toLex (pool, token)) with
  | some value => exact ⟨(hcache.values pool token value hget).symm, hcache⟩
  | none =>
    rw [runFrom_bind, runFrom_lift]
    cases hvalue : readToken reader pool token with
    | error e => exact ⟨rfl, hcache⟩
    | ok value =>
      dsimp only
      split
      · rename_i hroom
        exact ⟨rfl, hcache.insert hvalue hget hroom.1 hroom.2⟩
      · exact ⟨rfl, hcache⟩

end StringPool

namespace ItemType

open StringPool

/-- The path of an item type without caches. -/
def itemPath (reader : TargetReader) (facts : ItemTypeFacts) (itemType : Nat) :
    Except ItemTypeError ItemKey := do
  let stringPool ← ofRead (StringTokenCache.pool reader facts.strings)
  let leafVtable ← ofRead (reader.moduleAddress facts.leafVtable 8)
  resolvePath reader facts leafVtable itemType fun token => ofRead (readToken reader stringPool token)

structure Resolver.Sound (reader : TargetReader) (facts : ItemTypeFacts) (state : Resolver) : Prop where
  paths : ∀ itemType path, state.items.paths.get? itemType = some path →
    itemPath reader facts itemType = .ok path
  size : state.items.paths.size ≤ maxItemTypes
  strings : state.strings.Sound reader
  pool : ∀ pool, state.pool = some pool → StringTokenCache.pool reader facts.strings = .ok pool

variable {reader : TargetReader} {facts : ItemTypeFacts}

theorem Resolver.Sound.empty (reader : TargetReader) (facts : ItemTypeFacts) :
    Resolver.Sound reader facts default where
  paths _ _ h := nomatch h
  size := Nat.zero_le _
  strings := StringTokenCache.Sound.empty
  pool _ h := nomatch h

theorem Resolver.Sound.insert {state : Resolver} (h : state.Sound reader facts) {itemType : Nat}
    {path : ItemKey} (hpath : itemPath reader facts itemType = .ok path)
    (hsize : state.items.paths.size < maxItemTypes) :
    Resolver.Sound reader facts
      { state with items := ⟨state.items.paths.insert itemType path⟩ } where
  paths itemType' path' hget := by
    rw [OrdMap.get?_insert] at hget
    split at hget
    · rename_i hkey
      cases hkey
      cases hget
      exact hpath
    · exact h.paths itemType' path' hget
  size := (OrdMap.size_insert_le _ _ _).trans hsize
  strings := h.strings
  pool := h.pool

section

variable {σ : Type} {I : σ → Prop} {resolve : Nat → ExceptT ItemTypeError (StateM σ) String}
  {token : Nat → Except ItemTypeError String}

theorem resolveHead_answers (prefixObject : Nat) (htoken : ∀ t, Answers I (resolve t) (token t)) :
    Answers I (resolveHead reader prefixObject resolve) (resolveHead reader prefixObject token) := by
  unfold resolveHead
  split
  · exact Answers.pure ""
  · exact Answers.bind (Answers.lift _) fun _ _ => Answers.bind (Answers.lift _) fun t _ => htoken t

/-- A resolved path does not depend on where its tokens came from. -/
theorem resolvePath_answers {expectedVtable descriptor : Nat}
    (htoken : ∀ t, Answers I (resolve t) (token t)) :
    Answers I (resolvePath reader facts expectedVtable descriptor resolve)
      (resolvePath reader facts expectedVtable descriptor token) := by
  unfold resolvePath
  refine Answers.bind (Answers.lift _) fun _ _ => Answers.bind (Answers.lift _) fun bytes _ => ?_
  dsimp only
  split
  · exact Answers.lift _
  · refine Answers.bind (Answers.lift _) fun prefixObject _ =>
      Answers.bind (resolveHead_answers prefixObject htoken) fun head _ => ?_
    exact Answers.bind (Answers.lift _) fun t _ => Answers.bind (htoken t) fun _ _ => Answers.lift _

end

theorem Resolver.resolve_answers (pool token : Nat) :
    Answers (Resolver.Sound reader facts) (Resolver.resolve reader pool token)
      (ofRead (readToken reader pool token)) := by
  intro state hstate
  obtain ⟨hvalue, hstrings⟩ := StringTokenCache.resolve_answers pool token state.strings hstate.strings
  refine ⟨?_, { paths := hstate.paths, size := hstate.size, strings := hstrings, pool := hstate.pool }⟩
  rw [← hvalue]
  rfl

theorem Resolver.batchPool_answers :
    Answers (Resolver.Sound reader facts) (Resolver.batchPool reader facts)
      (ofRead (StringTokenCache.pool reader facts.strings)) := by
  intro state hstate
  unfold batchPool
  rw [runFrom_bind, runFrom_get]
  dsimp only
  cases hpool : state.pool with
  | some pool =>
    rw [hstate.pool pool hpool]
    exact ⟨rfl, hstate⟩
  | none =>
    rw [runFrom_bind, runFrom_lift]
    cases hread : StringTokenCache.pool reader facts.strings with
    | error e => exact ⟨rfl, hstate⟩
    | ok pool =>
      refine ⟨rfl, { hstate with pool := ?_ }⟩
      rintro _ ⟨⟩
      exact hread

theorem Resolver.resolveItemPath_answers (itemType : Nat) :
    Answers (Resolver.Sound reader facts) (Resolver.resolveItemPath reader facts itemType)
      (itemPath reader facts itemType) := by
  intro state hstate
  unfold resolveItemPath
  rw [runFrom_bind, runFrom_get]
  dsimp only
  cases hget : state.items.paths.get? itemType with
  | some path => exact ⟨(hstate.paths itemType path hget).symm, hstate⟩
  | none =>
    dsimp only
    refine Answers.bind batchPool_answers (fun pool hpool => ?_) state hstate
    refine Answers.bind (Answers.lift _) fun vtable hvtable => ?_
    refine Answers.bind_self (resolvePath_answers (Resolver.resolve_answers pool)) fun path hpath => ?_
    intro current hcurrent
    rw [runFrom_bind, runFrom_get]
    dsimp only
    split
    · rename_i hroom
      refine ⟨rfl, hcurrent.insert ?_ hroom⟩
      rw [itemPath, hpool, ok_bind, hvtable, ok_bind]
      exact hpath
    · exact ⟨rfl, hcurrent⟩

/-! ## Every run -/

/-- The answer to a request on its own, without caches. -/
def uncached (reader : TargetReader) (facts : ItemTypeFacts) : Request → Answer
  | .batch => .batch
  | .token pool token => .token (ofRead (readToken reader pool token))
  | .item itemType => .item (itemPath reader facts itemType)

theorem Resolver.answer_sound {state : Resolver} (h : state.Sound reader facts) (request : Request) :
    (state.answer reader facts request).1 = uncached reader facts request ∧
      (state.answer reader facts request).2.Sound reader facts := by
  cases request with
  | batch => exact ⟨rfl, { h with pool := nofun }⟩
  | token pool token =>
    obtain ⟨hvalue, hsound⟩ := Resolver.resolve_answers pool token state h
    exact ⟨congrArg Answer.token hvalue, hsound⟩
  | item itemType =>
    obtain ⟨hpath, hsound⟩ := Resolver.resolveItemPath_answers itemType state h
    exact ⟨congrArg Answer.item hpath, hsound⟩

theorem Resolver.run_sound {state : Resolver} (h : state.Sound reader facts) (requests : List Request) :
    (state.run reader facts requests).1 = requests.map (uncached reader facts) ∧
      (state.run reader facts requests).2.Sound reader facts := by
  induction requests generalizing state with
  | nil => exact ⟨rfl, h⟩
  | cons request requests ih =>
    obtain ⟨hanswer, hnext⟩ := Resolver.answer_sound h request
    obtain ⟨hanswers, hlast⟩ := ih hnext
    refine ⟨?_, hlast⟩
    rw [List.map_cons, ← hanswer, ← hanswers]
    rfl

/-- Every run of resolutions from empty caches answers as resolutions without caches do, and the caches
keep their counts and limits. -/
theorem run_transparent (reader : TargetReader) (facts : ItemTypeFacts) (requests : List Request) :
    let out := (default : Resolver).run reader facts requests
    out.1 = requests.map (uncached reader facts) ∧
    out.2.strings.decodedBytes = (out.2.strings.values.sum fun _ value => value.utf8ByteSize) ∧
    out.2.strings.decodedBytes ≤ maxDecodedBytes ∧
    out.2.strings.values.size ≤ maxStringTokens ∧
    out.2.items.paths.size ≤ maxItemTypes := by
  obtain ⟨hanswers, hsound⟩ := Resolver.run_sound (Resolver.Sound.empty reader facts) requests
  exact ⟨hanswers, hsound.strings.decodedBytes, hsound.strings.bytes, hsound.strings.size, hsound.size⟩

end ItemType

end Warframe
end WfObserver
