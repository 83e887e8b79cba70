import Ketebe.DocumentChunks
import Ketebe.Lib.LruCache
import Ketebe.ResourceScheduler

/-!
The cache of embeddings. A call looks every text up, embeds what was not found once for
each key, and stores it; the key of a text is the hash of its normal form.
-/
namespace Ketebe.Embedding

open Lib Lib.ByteCodec

/-! ### Providers -/

inductive EmbeddingProviderError where
  | failed (message : String)
  | admission (error : ResourceSchedulerError)
  | panicked (message : String)
  deriving DecidableEq

structure EmbeddingProvider where
  providerName : String
  modelName : String
  modelVersion : String
  maxBatchInputs : ℕ
  embedBatch : List String → ℕ → Except EmbeddingProviderError (List (List F32))

def chunks {α : Type} (size : ℕ) : List α → List (List α)
  | [] => []
  | first :: rest => (first :: rest.take (size - 1)) :: chunks size (rest.drop (size - 1))
termination_by list => list.length
decreasing_by simp only [List.length_cons, List.length_drop]; omega

theorem flatten_chunks {α : Type} (size : ℕ) (list : List α) : (chunks size list).flatten = list := by
  fun_induction chunks size list with
  | case1 => rfl
  | case2 first rest ih =>
    rw [List.flatten_cons, ih, List.cons_append, List.take_append_drop]

def embedChunk (provider : EmbeddingProvider) (expectedDimension : ℕ) (batch : List String) :
    Except EmbeddingProviderError (List (List F32)) := do
  let vectors ← provider.embedBatch batch expectedDimension
  if vectors.length ≠ batch.length then
    throw (.failed (s!"provider returned {vectors.length} vectors for {batch.length} " ++
      "batch inputs"))
  else pure vectors

/-- The batches run side by side, and their vectors are put together in the order of the
texts. -/
def embedTextsBatched (provider : EmbeddingProvider) (texts : List String)
    (expectedDimension : ℕ) : Except EmbeddingProviderError (List (List F32)) :=
  if texts = [] then .ok []
  else do
    let batches ← (chunks (max provider.maxBatchInputs 1) texts).mapM
      (embedChunk provider expectedDimension)
    pure batches.flatten

/-- The provider answers the same vector for a text each time and in each batch. -/
def EmbeddingProvider.Computes (provider : EmbeddingProvider) (embed : ℕ → String → List F32) :
    Prop :=
  ∀ (texts : List String) (dimension : ℕ),
    provider.embedBatch texts dimension = .ok (texts.map (embed dimension))

theorem embedTextsBatched_eq {provider : EmbeddingProvider} {embed : ℕ → String → List F32}
    (hprovider : provider.Computes embed) (texts : List String) (dimension : ℕ) :
    embedTextsBatched provider texts dimension = .ok (texts.map (embed dimension)) := by
  have hchunk (batch : List String) :
      embedChunk provider dimension batch = .ok (batch.map (embed dimension)) := by
    have hlength : (batch.map (embed dimension)).length = batch.length := List.length_map _
    rw [embedChunk, hprovider]
    exact if_neg (not_not.mpr hlength)
  unfold embedTextsBatched
  split
  · rename_i hnil
    rw [hnil]
    rfl
  · have hbatches (batches : List (List String)) :
        batches.mapM (embedChunk provider dimension) =
          .ok (batches.map fun batch => batch.map (embed dimension)) := by
      rw [except_mapM_ok, List.forall₂_map_right_iff]
      exact List.forall₂_same.mpr fun batch _ => hchunk batch
    rw [hbatches]
    change Except.ok _ = _
    rw [← List.map_flatten, flatten_chunks]

/-! ### Keys -/

structure EmbeddingCacheKey where
  profile : String
  provider : String
  model : String
  modelVersion : String
  dimension : ℕ
  normalization : String
  contentSha256 : String
  deriving DecidableEq, Hashable

def replaceCrLf : List Char → List Char
  | '\r' :: '\n' :: rest => '\n' :: replaceCrLf rest
  | character :: rest => character :: replaceCrLf rest
  | [] => []

def normalizeContent (text : String) : String :=
  String.ofList ((replaceCrLf text.toList).map fun character =>
    if character = '\r' then '\n' else character)

def canonicalContentHash (sha256 : Bytes → Bytes) (text : String) : String :=
  hexEncode (sha256 (utf8 (normalizeContent text)))

section Cache

variable (sha256 : Bytes → Bytes) (profile : String) (provider : EmbeddingProvider)

def embeddingCacheKey (dimension : ℕ) (text : String) : EmbeddingCacheKey :=
  ⟨profile, provider.providerName, provider.modelName, provider.modelVersion, dimension,
    "line_endings_v1", canonicalContentHash sha256 text⟩

/-! ### Calls -/

abbrev EmbeddingCache := LruCache EmbeddingCacheKey (List F32)

/-- What a call knows while it looks its texts up. Each text has its vector or the index
of what it misses. -/
structure Lookup where
  cache : EmbeddingCache
  output : List (Option (List F32) × Option ℕ)
  uniqueMisses : List (EmbeddingCacheKey × String)
  pending : Std.ExtHashMap EmbeddingCacheKey ℕ

def lookUp (dimension : ℕ) (state : Lookup) (text : String) : Lookup :=
  let key := embeddingCacheKey sha256 profile provider dimension text
  match state.cache.get key with
  | (some vector, cache) =>
      { state with cache := cache, output := state.output ++ [(some vector, none)] }
  | (none, cache) => match state.pending[key]? with
    | some missIndex =>
        { state with cache := cache, output := state.output ++ [(none, some missIndex)] }
    | none =>
        ⟨cache, state.output ++ [(none, some state.uniqueMisses.length)],
          state.uniqueMisses ++ [(key, text)], state.pending.insert key state.uniqueMisses.length⟩

def outputVector (missVectors : List (List F32)) :
    Option (List F32) × Option ℕ → Except EmbeddingProviderError (List F32)
  | (_, some missIndex) => match missVectors[missIndex]? with
    | some vector => .ok vector
    | none => .error (.panicked "index out of bounds")
  | (some vector, none) => .ok vector
  | (none, none) => .error (.failed "embedding cache executor lost an output vector")

/-- The scheduler is the one with the default budget. It is never closed, so that only a
request beyond the budget is refused. -/
def admission : Except EmbeddingProviderError Unit := do
  let scheduler ← (ResourceScheduler.new .default).mapError .admission
  (scheduler.validateRequest .embedding).mapError .admission

def storeMisses (cache : EmbeddingCache) (uniqueMisses : List (EmbeddingCacheKey × String))
    (missVectors : List (List F32)) : EmbeddingCache :=
  (uniqueMisses.zip missVectors).foldl (fun cache entry => cache.insert entry.1.1 entry.2) cache

def embedMisses (provider : EmbeddingProvider) (dimension : ℕ) (missTexts : List String) :
    Except EmbeddingProviderError (List (List F32)) := do
  if missTexts ≠ [] then admission
  let missVectors ← embedTextsBatched provider missTexts dimension
  if missVectors.length ≠ missTexts.length then
    throw (.failed
      "embedding cache executor received an unexpected provider result count")
  else pure missVectors

/-- A failed call keeps what its lookups did to the order. -/
def embedTextsCached (cache : EmbeddingCache) (texts : List String) (dimension : ℕ) :
    Except EmbeddingProviderError (List (List F32)) × EmbeddingCache :=
  if texts = [] then (.ok [], cache)
  else
    let found := texts.foldl (lookUp sha256 profile provider dimension) ⟨cache, [], [], ∅⟩
    match embedMisses provider dimension (found.uniqueMisses.map Prod.snd) with
    | .error error => (.error error, found.cache)
    | .ok missVectors =>
        (found.output.mapM (outputVector missVectors),
          storeMisses found.cache found.uniqueMisses missVectors)

end Cache

/-! ### What a call knows -/

section Answers

variable {sha256 : Bytes → Bytes} {profile : String} {provider : EmbeddingProvider}
variable {embed : ℕ → String → List F32} {dimension : ℕ}

/-- Texts of one hash have one vector. -/
def Agrees (sha256 : Bytes → Bytes) (embed : ℕ → String → List F32) : Prop :=
  ∀ (dimension : ℕ) (first second : String),
    canonicalContentHash sha256 first = canonicalContentHash sha256 second →
      embed dimension first = embed dimension second

/-- A vector is that of every text with the hash of its key. -/
def Allowed (sha256 : Bytes → Bytes) (embed : ℕ → String → List F32) (key : EmbeddingCacheKey)
    (vector : List F32) : Prop :=
  ∀ text, key.contentSha256 = canonicalContentHash sha256 text → vector = embed key.dimension text

/-- A cache that may answer for the provider. -/
structure Sound (sha256 : Bytes → Bytes) (embed : ℕ → String → List F32) (cache : EmbeddingCache) :
    Prop where
  allows : cache.Allows (Allowed sha256 embed)
  queue : ∃ past, cache.LeastRecent past

/-- A text has its vector, or the index of a miss with its key. -/
def Found (sha256 : Bytes → Bytes) (profile : String) (provider : EmbeddingProvider)
    (embed : ℕ → String → List F32) (dimension : ℕ) (misses : List (EmbeddingCacheKey × String))
    (text : String) (slot : Option (List F32) × Option ℕ) : Prop :=
  slot = (some (embed dimension text), none) ∨ ∃ index missed, slot = (none, some index) ∧
    misses[index]? = some (embeddingCacheKey sha256 profile provider dimension text, missed)

/-- What is known after some texts were looked up. -/
structure Looked (sha256 : Bytes → Bytes) (profile : String) (provider : EmbeddingProvider)
    (embed : ℕ → String → List F32) (dimension : ℕ) (done : List String) (state : Lookup) :
    Prop where
  cache : Sound sha256 embed state.cache
  misses : ∀ entry ∈ state.uniqueMisses,
    entry.1 = embeddingCacheKey sha256 profile provider dimension entry.2
  pending (key : EmbeddingCacheKey) (index : ℕ) : state.pending[key]? = some index →
    ∃ missed, state.uniqueMisses[index]? = some (key, missed)
  output : List.Forall₂ (Found sha256 profile provider embed dimension state.uniqueMisses) done
    state.output

theorem Sound.get {cache : EmbeddingCache} (h : Sound sha256 embed cache) (key : EmbeddingCacheKey) :
    Sound sha256 embed (cache.get key).2 := by
  obtain ⟨past, hpast⟩ := h.queue
  exact ⟨h.allows.get key, _, hpast.get key⟩

theorem Sound.insert {cache : EmbeddingCache} (h : Sound sha256 embed cache)
    {key : EmbeddingCacheKey} {vector : List F32} (hvector : Allowed sha256 embed key vector) :
    Sound sha256 embed (cache.insert key vector) := by
  obtain ⟨past, hpast⟩ := h.queue
  exact ⟨h.allows.insert hpast hvector, _, hpast.insert key vector⟩

theorem Found.append {misses : List (EmbeddingCacheKey × String)} {text : String}
    {slot : Option (List F32) × Option ℕ}
    (h : Found sha256 profile provider embed dimension misses text slot)
    (more : List (EmbeddingCacheKey × String)) :
    Found sha256 profile provider embed dimension (misses ++ more) text slot := by
  obtain h | ⟨index, missed, hslot, hmiss⟩ := h
  · exact .inl h
  · refine .inr ⟨index, missed, hslot, ?_⟩
    rw [List.getElem?_append_left (List.getElem?_eq_some_iff.mp hmiss).1, hmiss]

theorem forall₂_concat {α β : Type} {holds : α → β → Prop} {left : List α} {right : List β} {a : α}
    {b : β} (h : List.Forall₂ holds left right) (hlast : holds a b) :
    List.Forall₂ holds (left ++ [a]) (right ++ [b]) := by
  induction h with
  | nil => exact .cons hlast .nil
  | cons hhead _ ih => exact .cons hhead ih

/-- One more text is looked up. -/
theorem Looked.lookUp {done : List String} {state : Lookup}
    (h : Looked sha256 profile provider embed dimension done state) (text : String) :
    Looked sha256 profile provider embed dimension (done ++ [text])
      (lookUp sha256 profile provider dimension state text) := by
  have hcache := h.cache.get (embeddingCacheKey sha256 profile provider dimension text)
  rw [Embedding.lookUp]
  rcases hget : state.cache.get (embeddingCacheKey sha256 profile provider dimension text) with
    ⟨found, cache⟩
  rw [hget] at hcache
  cases found with
  | some vector =>
    have hvector : vector = embed dimension text :=
      h.cache.allows.get_some (congrArg Prod.fst hget) text rfl
    exact ⟨hcache, h.misses, h.pending, forall₂_concat h.output (.inl (by rw [hvector]))⟩
  | none =>
    cases hpending : state.pending[embeddingCacheKey sha256 profile provider dimension text]? with
    | some missIndex =>
      obtain ⟨missed, hmissed⟩ := h.pending _ _ hpending
      exact ⟨hcache, h.misses, h.pending,
        forall₂_concat h.output (.inr ⟨missIndex, missed, rfl, hmissed⟩)⟩
    | none =>
      have hnew : (state.uniqueMisses ++ [(embeddingCacheKey sha256 profile provider dimension text,
          text)])[state.uniqueMisses.length]? =
            some (embeddingCacheKey sha256 profile provider dimension text, text) :=
        List.getElem?_concat_length
      refine ⟨hcache, ?_, ?_, ?_⟩
      · intro entry hentry
        obtain hold | hlast := List.mem_append.mp hentry
        · exact h.misses entry hold
        · rw [List.mem_singleton.mp hlast]
      · intro key index hkey
        change (Std.ExtHashMap.insert _ _ _)[key]? = _ at hkey
        rw [Std.ExtHashMap.getElem?_insert] at hkey
        split at hkey
        · rename_i hsame
          cases hkey
          exact ⟨text, beq_iff_eq.mp hsame ▸ hnew⟩
        · obtain ⟨missed, hmissed⟩ := h.pending key index hkey
          refine ⟨missed, ?_⟩
          rw [List.getElem?_append_left (List.getElem?_eq_some_iff.mp hmissed).1, hmissed]
      · exact forall₂_concat (h.output.imp fun _ _ hfound => hfound.append _)
          (.inr ⟨_, text, rfl, hnew⟩)

theorem Looked.foldl {done : List String} {state : Lookup}
    (h : Looked sha256 profile provider embed dimension done state) (texts : List String) :
    Looked sha256 profile provider embed dimension (done ++ texts)
      (texts.foldl (Embedding.lookUp sha256 profile provider dimension) state) := by
  induction texts generalizing done state with
  | nil =>
    rw [List.append_nil]
    exact h
  | cons text rest ih =>
    have hnext := ih (h.lookUp text)
    rw [List.append_assoc] at hnext
    exact hnext

theorem admission_ok : admission = .ok () := rfl

theorem embedMisses_eq (hprovider : provider.Computes embed) (missTexts : List String) :
    embedMisses provider dimension missTexts = .ok (missTexts.map (embed dimension)) := by
  have hlength : (missTexts.map (embed dimension)).length = missTexts.length := List.length_map _
  rw [embedMisses, admission_ok, embedTextsBatched_eq hprovider]
  split
  · exact if_neg (not_not.mpr hlength)
  · exact if_neg (not_not.mpr hlength)

/-- The vectors of what was missed complete the output. -/
theorem Looked.outputVector (hagrees : Agrees sha256 embed) {done : List String} {state : Lookup}
    (h : Looked sha256 profile provider embed dimension done state) :
    state.output.mapM (Embedding.outputVector
      ((state.uniqueMisses.map Prod.snd).map (embed dimension))) =
        .ok (done.map (embed dimension)) := by
  rw [except_mapM_ok, List.forall₂_map_right_iff]
  refine h.output.flip.imp fun slot text hfound => ?_
  obtain rfl | ⟨index, missed, rfl, hmiss⟩ := hfound
  · rfl
  · have hkey := h.misses _ (List.mem_of_getElem? hmiss)
    have hsame := hagrees dimension missed text (congrArg EmbeddingCacheKey.contentSha256 hkey).symm
    rw [Embedding.outputVector, List.getElem?_map, List.getElem?_map, hmiss]
    exact congrArg Except.ok hsame

theorem allowed_embed (hagrees : Agrees sha256 embed) (text : String) :
    Allowed sha256 embed (embeddingCacheKey sha256 profile provider dimension text)
      (embed dimension text) :=
  fun other hother => hagrees dimension text other hother

theorem Sound.storeMisses (hagrees : Agrees sha256 embed) {cache : EmbeddingCache}
    (h : Sound sha256 embed cache) {misses : List (EmbeddingCacheKey × String)}
    (hmisses : ∀ entry ∈ misses,
      entry.1 = embeddingCacheKey sha256 profile provider dimension entry.2) :
    Sound sha256 embed
      (Embedding.storeMisses cache misses ((misses.map Prod.snd).map (embed dimension))) := by
  rw [Embedding.storeMisses]
  induction misses generalizing cache with
  | nil => exact h
  | cons entry rest ih =>
    obtain ⟨hentry, hrest⟩ := List.forall_mem_cons.mp hmisses
    refine ih (h.insert ?_) hrest
    rw [hentry]
    exact allowed_embed hagrees entry.2

/-- Every call answers what the provider answers, and leaves the cache sound. -/
theorem Sound.embedTextsCached (hagrees : Agrees sha256 embed) (hprovider : provider.Computes embed)
    {cache : EmbeddingCache} (h : Sound sha256 embed cache) (profile : String) (texts : List String)
    (dimension : ℕ) :
    (Embedding.embedTextsCached sha256 profile provider cache texts dimension).1 =
        .ok (texts.map (embed dimension)) ∧
      Sound sha256 embed
        (Embedding.embedTextsCached sha256 profile provider cache texts dimension).2 := by
  unfold Embedding.embedTextsCached
  split
  · rename_i hnil
    rw [hnil]
    exact ⟨rfl, h⟩
  · have hstart : Looked sha256 profile provider embed dimension [] ⟨cache, [], [], ∅⟩ := by
      refine ⟨h, nofun, fun key index hkey => ?_, .nil⟩
      rw [Std.ExtHashMap.getElem?_empty] at hkey
      cases hkey
    have hlooked := hstart.foldl texts
    rw [List.nil_append] at hlooked
    dsimp only
    rw [embedMisses_eq hprovider]
    exact ⟨hlooked.outputVector hagrees, hlooked.cache.storeMisses hagrees hlooked.misses⟩

end Answers

/-! ### Histories -/

structure EmbeddingCall where
  profile : String
  texts : List String
  dimension : ℕ

section Histories

variable (sha256 : Bytes → Bytes) (provider : EmbeddingProvider)

def EmbeddingCall.answer (call : EmbeddingCall) (cache : EmbeddingCache) :
    Except EmbeddingProviderError (List (List F32)) × EmbeddingCache :=
  embedTextsCached sha256 call.profile provider cache call.texts call.dimension

/-- The cache after some calls. -/
def afterCalls (history : List EmbeddingCall) (cache : EmbeddingCache) : EmbeddingCache :=
  history.foldl (fun cache call => (call.answer sha256 provider cache).2) cache

/-- What a call does to the cache: it looks every text up, then it stores what it missed. -/
def EmbeddingCall.operations (call : EmbeddingCall) (cache : EmbeddingCache) :
    List (LruCache.Operation EmbeddingCacheKey (List F32)) :=
  let found := call.texts.foldl (lookUp sha256 call.profile provider call.dimension)
    ⟨cache, [], [], ∅⟩
  call.texts.map (fun text =>
      .get (embeddingCacheKey sha256 call.profile provider call.dimension text)) ++
    match embedMisses provider call.dimension (found.uniqueMisses.map Prod.snd) with
      | .error _ => []
      | .ok missVectors => (found.uniqueMisses.zip missVectors).map fun entry =>
          .insert entry.1.1 entry.2

def historyOperations : List EmbeddingCall → EmbeddingCache →
    List (LruCache.Operation EmbeddingCacheKey (List F32))
  | [], _ => []
  | call :: rest, cache => call.operations sha256 provider cache ++
      historyOperations rest (call.answer sha256 provider cache).2

/-- Calls answer what the provider answers without a cache, and after each operation the
queue is that of the keys last used. -/
structure Transparent (capacity : ℕ) : Prop where
  answers (history : List EmbeddingCall) (call : EmbeddingCall) :
    (call.answer sha256 provider (afterCalls sha256 provider history (.new capacity))).1 =
      embedTextsBatched provider call.texts call.dimension
  operations (history : List EmbeddingCall) :
    afterCalls sha256 provider history (.new capacity) =
      LruCache.run (historyOperations sha256 provider history (.new capacity)) (.new capacity)
  queue (history : List EmbeddingCall)
    (done : List (LruCache.Operation EmbeddingCacheKey (List F32))) :
    done <+: historyOperations sha256 provider history (.new capacity) →
      (LruCache.run done (.new capacity)).LeastRecent (LruCache.uses done (.new capacity))

variable {sha256 provider}

theorem lookUp_cache {profile : String} {dimension : ℕ} (state : Lookup) (text : String) :
    (lookUp sha256 profile provider dimension state text).cache =
      state.cache.step (.get (embeddingCacheKey sha256 profile provider dimension text)) := by
  rw [lookUp, LruCache.step]
  rcases state.cache.get (embeddingCacheKey sha256 profile provider dimension text) with
    ⟨found, cache⟩
  cases found with
  | some vector => rfl
  | none =>
    cases state.pending[embeddingCacheKey sha256 profile provider dimension text]? <;> rfl

theorem foldl_lookUp_cache {profile : String} {dimension : ℕ} (texts : List String)
    (state : Lookup) :
    (texts.foldl (lookUp sha256 profile provider dimension) state).cache =
      LruCache.run (texts.map fun text =>
        .get (embeddingCacheKey sha256 profile provider dimension text)) state.cache := by
  induction texts generalizing state with
  | nil => rfl
  | cons text rest ih => rw [List.foldl_cons, ih, lookUp_cache, List.map_cons, LruCache.run]

theorem storeMisses_eq (cache : EmbeddingCache) (misses : List (EmbeddingCacheKey × String))
    (missVectors : List (List F32)) :
    storeMisses cache misses missVectors =
      LruCache.run ((misses.zip missVectors).map fun entry => .insert entry.1.1 entry.2) cache := by
  rw [storeMisses]
  induction misses.zip missVectors generalizing cache with
  | nil => rfl
  | cons entry rest ih => exact ih (cache.insert entry.1.1 entry.2)

theorem EmbeddingCall.answer_cache (call : EmbeddingCall) (cache : EmbeddingCache) :
    (call.answer sha256 provider cache).2 =
      LruCache.run (call.operations sha256 provider cache) cache := by
  rw [EmbeddingCall.answer, EmbeddingCall.operations, LruCache.run_append, embedTextsCached]
  have hfound : (call.texts.foldl (lookUp sha256 call.profile provider call.dimension)
      ⟨cache, [], [], ∅⟩).cache = _ := foldl_lookUp_cache call.texts _
  rw [← hfound]
  split
  · rename_i hnil
    rw [hnil]
    rfl
  · dsimp only
    cases hmisses : embedMisses provider call.dimension
        ((call.texts.foldl (lookUp sha256 call.profile provider call.dimension)
          ⟨cache, [], [], ∅⟩).uniqueMisses.map Prod.snd) with
    | error error => rfl
    | ok missVectors => exact storeMisses_eq _ _ _

theorem afterCalls_operations (history : List EmbeddingCall) (cache : EmbeddingCache) :
    afterCalls sha256 provider history cache =
      LruCache.run (historyOperations sha256 provider history cache) cache := by
  induction history generalizing cache with
  | nil => rfl
  | cons call rest ih =>
    rw [historyOperations, LruCache.run_append, ← EmbeddingCall.answer_cache, ← ih]
    rfl

theorem Sound.afterCalls {embed : ℕ → String → List F32} (hagrees : Agrees sha256 embed)
    (hprovider : provider.Computes embed) {cache : EmbeddingCache} (h : Sound sha256 embed cache)
    (history : List EmbeddingCall) :
    Sound sha256 embed (Embedding.afterCalls sha256 provider history cache) := by
  induction history generalizing cache with
  | nil => exact h
  | cons call rest ih =>
    exact ih (h.embedTextsCached hagrees hprovider call.profile call.texts call.dimension).2

/-- Two texts of one hash in one call share the vector of the first. -/
theorem answer_sameHash {embed : ℕ → String → List F32} (hprovider : provider.Computes embed)
    (capacity dimension : ℕ) {first second : String}
    (hhash : canonicalContentHash sha256 first = canonicalContentHash sha256 second) :
    (EmbeddingCall.answer sha256 provider ⟨"", [first, second], dimension⟩
      (LruCache.new capacity)).1 = .ok [embed dimension first, embed dimension first] := by
  have hmiss (text : String) : (LruCache.new capacity : EmbeddingCache).get
      (embeddingCacheKey sha256 "" provider dimension text) = (none, .new capacity) := by
    rw [LruCache.get, LruCache.new, Std.ExtHashMap.getElem?_empty]
  have hkey : embeddingCacheKey sha256 "" provider dimension second =
      embeddingCacheKey sha256 "" provider dimension first := by
    rw [embeddingCacheKey, embeddingCacheKey, hhash]
  have hfirst : lookUp sha256 "" provider dimension ⟨.new capacity, [], [], ∅⟩ first =
      ⟨.new capacity, [(none, some 0)],
        [(embeddingCacheKey sha256 "" provider dimension first, first)],
        (∅ : Std.ExtHashMap EmbeddingCacheKey ℕ).insert
          (embeddingCacheKey sha256 "" provider dimension first) 0⟩ := by
    rw [lookUp, hmiss, Std.ExtHashMap.getElem?_empty]
    rfl
  have hsecond : ([first, second].foldl (lookUp sha256 "" provider dimension)
      ⟨.new capacity, [], [], ∅⟩) = ⟨.new capacity, [(none, some 0), (none, some 0)],
        [(embeddingCacheKey sha256 "" provider dimension first, first)],
        (∅ : Std.ExtHashMap EmbeddingCacheKey ℕ).insert
          (embeddingCacheKey sha256 "" provider dimension first) 0⟩ := by
    rw [List.foldl_cons, hfirst, List.foldl_cons, lookUp, hmiss, hkey,
      Std.ExtHashMap.getElem?_insert_self]
    rfl
  rw [EmbeddingCall.answer, embedTextsCached, if_neg (List.cons_ne_nil _ _)]
  dsimp only
  rw [hsecond]
  dsimp only
  rw [embedMisses_eq hprovider]
  rfl

theorem Transparent.agrees {embed : ℕ → String → List F32} (hprovider : provider.Computes embed)
    {capacity : ℕ} (h : Transparent sha256 provider capacity) : Agrees sha256 embed := by
  intro dimension first second hhash
  have hanswer := h.answers [] ⟨"", [first, second], dimension⟩
  rw [embedTextsBatched_eq hprovider] at hanswer
  have hshared := (answer_sameHash hprovider capacity dimension hhash).symm.trans hanswer
  exact (List.cons.inj (List.cons.inj (Except.ok.inj hshared)).2).1

def sampleProvider (embed : String → List F32) : EmbeddingProvider :=
  ⟨"sample", "model", "v1", 1, fun texts _ => .ok (texts.map embed)⟩

/-- A vector that tells whether a text has carriage returns. -/
def carriageVector (text : String) : List F32 :=
  if '\r' ∈ text.toList then [⟨0x3f800000⟩] else [⟨0⟩]

/-- Whatever the hash, both kinds of line endings share a key. -/
theorem not_transparent_carriage :
    ¬ ∃ sha256 : Bytes → Bytes, Transparent sha256 (sampleProvider carriageVector) 4096 := by
  intro ⟨sha256, h⟩
  have hprovider : (sampleProvider carriageVector).Computes fun _ => carriageVector :=
    fun _ _ => rfl
  have hnormal : normalizeContent "a\r\nb" = normalizeContent "a\nb" := by decide
  have hhash : canonicalContentHash sha256 "a\r\nb" = canonicalContentHash sha256 "a\nb" := by
    rw [canonicalContentHash, canonicalContentHash, hnormal]
  exact absurd (h.agrees hprovider 1 _ _ hhash) (by decide)

/-- The cache is transparent for exactly the providers that answer alike for texts of one
hash, in particular for texts that differ in their line endings. -/
theorem transparent_iff (sha256 : Bytes → Bytes) {embed : ℕ → String → List F32}
    (hprovider : provider.Computes embed) (capacity : ℕ) :
    Transparent sha256 provider capacity ↔ Agrees sha256 embed := by
  constructor
  · exact fun h => h.agrees hprovider
  · intro hagrees
    have hnew : Sound sha256 embed (.new capacity) :=
      ⟨LruCache.Allows.new capacity, [], LruCache.LeastRecent.new capacity⟩
    refine ⟨fun history call => ?_, fun history => afterCalls_operations history _, ?_⟩
    · have hsound := hnew.afterCalls hagrees hprovider history
      rw [embedTextsBatched_eq hprovider]
      exact (hsound.embedTextsCached hagrees hprovider call.profile call.texts call.dimension).1
    · exact fun history done _ => (LruCache.LeastRecent.new capacity).run done

/-- A provider that tells no texts apart, without room in the cache. -/
theorem transparent_constant :
    Transparent (fun bytes => bytes) (sampleProvider fun _ => [⟨0⟩]) 0 := by
  have hprovider : (sampleProvider fun _ => [⟨0⟩]).Computes fun _ _ => [⟨0⟩] := fun _ _ => rfl
  exact (transparent_iff _ hprovider 0).mpr fun _ _ _ _ => rfl

end Histories

end Ketebe.Embedding
