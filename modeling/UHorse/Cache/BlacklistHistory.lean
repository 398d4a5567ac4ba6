import UHorse.Cache.TokenBlacklist

/-!
# The blacklist as one expiring set

A history is kept of the additions, removals and clearings that Redis has confirmed, of additions
that failed, and of the lookups that ran while no other call did. Lookups answer as one expiring
set would just as long as the ids that instances keep, and the keys that Redis keeps, last as long
as the entries they stand for.
-/

namespace UHorse.Cache

open UHorse.Lib UHorse.Protocol

/-! ## Histories -/

/-- What instances answered for a token right before and after it was inserted into the set of one
of them. -/
structure Insertion where
  index : Nat
  before : Nat → Bool
  after : Nat → Bool

/-- What happened; an addition comes with the time at which its key expires. -/
inductive BlacklistEvent
  | added (token : BlacklistedToken) (deadline : DateTime)
  | failed (tokenId : String) (inserted : Option Insertion)
  | removed (tokenId : String)
  | cleared
  | answered (tokenId : String) (now : DateTime) (answer : Bool)

/-- The entry of a token, with the time at which its key expires. -/
def entryOf (tokenId : String) : List BlacklistEvent → Option (BlacklistedToken × DateTime)
  | [] => none
  | .added token deadline :: before =>
    if token.tokenId = tokenId then some (token, deadline) else entryOf tokenId before
  | .removed other :: before => if other = tokenId then none else entryOf tokenId before
  | .cleared :: _ => none
  | .failed .. :: before | .answered .. :: before => entryOf tokenId before

/-- The token was added and has not expired, and it was not removed or cleared since. -/
def Blacklisted (tokenId : String) (now : DateTime) (history : List BlacklistEvent) : Prop :=
  ∃ token deadline, entryOf tokenId history = some (token, deadline) ∧ token.isExpired now = false

/-- Whether an event may follow on others. -/
def BlacklistEvent.Follows (before : List BlacklistEvent) : BlacklistEvent → Prop
  | .answered tokenId now answer => answer = true ↔ Blacklisted tokenId now before
  | .failed _ inserted => ∀ insertion ∈ inserted, ∀ index,
      insertion.after index = insertion.before index
  | _ => True

abbrev BlacklistPool := Pool BlacklistCluster RedisEnv BlacklistNote Unit (Option Insertion)

/-- The calls of instances that share the Redis. -/
inductive BlacklistCall : BlacklistProcess Unit → Prop
  | add (self : TokenBlacklist) (shared : self.redis.isSome) (token : BlacklistedToken) :
      BlacklistCall (self.add token).discard
  | isBlacklisted (self : TokenBlacklist) (shared : self.redis.isSome) (tokenId : String) :
      BlacklistCall (self.isBlacklisted tokenId).discard
  | remove (self : TokenBlacklist) (shared : self.redis.isSome) (tokenId : String) :
      BlacklistCall (self.remove tokenId).discard
  | clear (self : TokenBlacklist) (shared : self.redis.isSome) :
      BlacklistCall self.clear.discard

/-- Time passes. -/
def BlacklistCluster.Passes (s t : BlacklistCluster) : Prop :=
  ∃ clock, s.clock ≤ clock ∧ t = { s with clock }

/-- The history, and the lookup that has run with no other call in progress since it began. -/
structure BlacklistBooks where
  history : List BlacklistEvent
  alone : Option Nat

/-- Whether no other call is in progress. -/
def othersDone (s : BlacklistPool) (index : Nat) : Bool :=
  (List.range s.threads.length).all fun other =>
    other = index || s.threads[other]?.all fun thread => thread.program.isDone

/-- Whether a call has run alone so far. -/
def quiet (books : BlacklistBooks) (s : BlacklistPool) (index : Nat) : BlacklistNote → Bool
  | .find .. => othersDone s index
  | _ => books.alone = some index

/-- What an action adds to the history, the latest event first. -/
def blacklistEntries (quiet : Bool) (seen : Option Insertion) (note : BlacklistNote)
    (env : RedisEnv) (s : BlacklistCluster) : List BlacklistEvent :=
  match note with
  | .set token ttl =>
    match RedisCache.setError ttl env with
    | none => [.added token (s.clock + seconds ttl.secs)]
    | some _ => [.failed token.tokenId seen]
  | .find index tokenId =>
    if quiet && decide (tokenId ∈ s.locals index) then [.answered tokenId s.clock true] else []
  | .existsKey tokenId =>
    if quiet && (RedisCache.existsError env).isNone then
      [.answered tokenId s.clock (s.get (tokenKey tokenId)).isSome]
    else []
  | .delete tokenId => if (RedisCache.deleteError env).isNone then [.removed tokenId] else []
  | .keys =>
    if (RedisCache.keysError env).isNone && (s.keys "blacklist:").isEmpty then [.cleared] else []
  | .deleteKeys _ => if (RedisCache.deletePatternError env).isNone then [.cleared] else []
  | _ => []

def BlacklistNote.redisAfter (note : BlacklistNote) (env : RedisEnv) (s : BlacklistCluster) :
    ExpiringMap String BlacklistedToken DateTime :=
  match note with
  | .set token ttl =>
    if (RedisCache.setError ttl env).isSome then s.redis
    else (s.setEx (tokenKey token.tokenId) token ttl).redis
  | .delete tokenId =>
    if (RedisCache.deleteError env).isSome then s.redis else (s.del (tokenKey tokenId)).redis
  | .deleteKeys listed =>
    if (RedisCache.deletePatternError env).isSome then s.redis else (s.delKeys listed).redis
  | _ => s.redis

def BlacklistNote.Does (_ : Option Insertion) (note : BlacklistNote) (env : RedisEnv)
    (s t : BlacklistCluster) : Prop :=
  t.redis = note.redisAfter env s ∧ t.clock = s.clock

section Calls

variable {α : Type} {seen : Option Insertion}

variable {self : TokenBlacklist}

end Calls

/-! ## What Redis holds -/

/-- The token of an entry whose key has not expired. -/
def alive (now : DateTime) : Option (BlacklistedToken × DateTime) → Option BlacklistedToken
  | some (token, deadline) => if now < deadline then some token else none
  | none => none

/-- From now on, the keys of tokens are those of the entries in the history. -/
def Recorded (s : BlacklistCluster) (history : List BlacklistEvent) : Prop :=
  ∀ now, s.clock ≤ now → ∀ tokenId,
    s.redis.live now (buildKey (tokenKey tokenId)) = alive now (entryOf tokenId history)

section Recorded

variable {s t : BlacklistCluster} {history : List BlacklistEvent} {tokenId tokenId' : String}
  {note : BlacklistNote} {env : RedisEnv} {seen : Option Insertion} {quiet : Bool}

theorem key_eq_iff : buildKey (tokenKey tokenId') = buildKey (tokenKey tokenId) ↔
    tokenId' = tokenId :=
  buildKey_inj.trans (String.append_right_inj "blacklist:")

theorem Recorded.set (recorded : Recorded s history) (token : BlacklistedToken) (ttl : Duration) :
    Recorded (s.setEx (tokenKey token.tokenId) token ttl)
      (.added token (s.clock + seconds ttl.secs) :: history) := by
  intro now after tokenId
  rw [Cluster.setEx, ExpiringMap.live_insert, entryOf]
  by_cases same : tokenId = token.tokenId
  · rw [if_pos (key_eq_iff.mpr same), if_pos same.symm]
    rfl
  · rw [if_neg (fun keys => same (key_eq_iff.mp keys)), if_neg (Ne.symm same)]
    exact recorded now after tokenId

theorem Recorded.delete (recorded : Recorded s history) (removed : String) :
    Recorded (s.del (tokenKey removed)) (.removed removed :: history) := by
  intro now after tokenId
  rw [Cluster.del, ExpiringMap.live_erase, entryOf]
  by_cases same : tokenId = removed
  · rw [if_pos (key_eq_iff.mpr same), if_pos same.symm]
    rfl
  · rw [if_neg (fun keys => same (key_eq_iff.mp keys)), if_neg (Ne.symm same)]
    exact recorded now after tokenId

theorem Recorded.sweep {keys : List String}
    (all : ∀ tokenId, (s.get (tokenKey tokenId)).isSome → buildKey (tokenKey tokenId) ∈ keys) :
    Recorded (s.delKeys keys) (.cleared :: history) := by
  intro now after tokenId
  rw [Cluster.delKeys, ExpiringMap.live_eraseWhere]
  split
  · rfl
  · next kept =>
      refine ExpiringMap.live_eq_none after (Option.not_isSome_iff_eq_none.mp fun isLive => ?_)
      exact kept (decide_eq_true (all tokenId isLive))

/-- With no key listed, there is nothing to clear. -/
theorem Recorded.none (empty : (s.keys "blacklist:").isEmpty = true) :
    Recorded s (.cleared :: history) := by
  intro now after tokenId
  refine ExpiringMap.live_eq_none after (Option.not_isSome_iff_eq_none.mp fun isLive => ?_)
  have listed : buildKey (tokenKey tokenId) ∈ s.keys "blacklist:" := by
    refine ExpiringMap.mem_liveKeys.mpr ⟨?_, isLive⟩
    rw [buildKey, buildKey, tokenKey, ← String.append_assoc]
    exact matchesStem_append _ _
  rw [List.isEmpty_iff.mp empty] at listed
  cases listed

/-- Events of other kinds leave the entries as they are. -/
theorem Recorded.of_entries {entries : List BlacklistEvent} (recorded : Recorded s history)
    (redis : t.redis = s.redis) (clock : t.clock = s.clock)
    (same : ∀ tokenId, entryOf tokenId (entries ++ history) = entryOf tokenId history) :
    Recorded t (entries ++ history) := by
  intro now after tokenId
  rw [redis, same]
  exact recorded now (clock ▸ after) tokenId

/-- What Redis holds is what the history says after every action whose sweep is complete. -/
theorem Recorded.step (recorded : Recorded s history) (does : note.Does seen env s t)
    (sweeps : ∀ keys, note = .deleteKeys keys → RedisCache.deletePatternError env = .none →
      ∀ tokenId, (s.get (tokenKey tokenId)).isSome → buildKey (tokenKey tokenId) ∈ keys) :
    Recorded t (blacklistEntries quiet seen note env s ++ history) := by
  obtain ⟨redis, clock⟩ := does
  have moved : ∀ {u : BlacklistCluster} {events : List BlacklistEvent}, Recorded u events →
      t.redis = u.redis → u.clock = s.clock → Recorded t events := by
    intro u events held same still now after tokenId
    rw [same]
    exact held now ((still.trans clock.symm).le.trans after) tokenId
  cases note with
  | set token ttl =>
    simp only [blacklistEntries, BlacklistNote.redisAfter] at redis ⊢
    cases refused : RedisCache.setError ttl env with
    | none =>
      rw [refused] at redis
      exact moved (recorded.set token ttl) redis rfl
    | some message =>
      rw [refused] at redis
      exact recorded.of_entries redis clock fun _ => rfl
  | delete tokenId =>
    simp only [blacklistEntries, BlacklistNote.redisAfter] at redis ⊢
    cases refused : RedisCache.deleteError env with
    | none =>
      rw [refused] at redis
      exact moved (recorded.delete tokenId) redis rfl
    | some message =>
      rw [refused] at redis
      exact recorded.of_entries redis clock fun _ => rfl
  | deleteKeys keys =>
    simp only [blacklistEntries, BlacklistNote.redisAfter] at redis ⊢
    cases refused : RedisCache.deletePatternError env with
    | none =>
      rw [refused] at redis
      exact moved (Recorded.sweep (sweeps keys rfl refused)) redis rfl
    | some message =>
      rw [refused] at redis
      exact recorded.of_entries redis clock fun _ => rfl
  | keys =>
    simp only [blacklistEntries]
    split
    · next empty => exact moved (Recorded.none (Bool.and_eq_true_iff.mp empty).2) redis rfl
    · exact recorded.of_entries redis clock fun _ => rfl
  | find | existsKey =>
    simp only [blacklistEntries]
    split <;> exact recorded.of_entries redis clock fun _ => rfl
  | _ => exact recorded.of_entries redis clock fun _ => rfl

end Recorded

/-! ## One action -/

/-- After an insertion the instance finds the token, and the others answer as before. -/
def Insertion.Fits (insertion : Insertion) : Prop :=
  ∀ index, insertion.after index = (decide (index = insertion.index) || insertion.before index)

section Actions

variable {s : BlacklistCluster} {books : BlacklistBooks} {note : BlacklistNote} {env : RedisEnv}
  {seen : Option Insertion} {quiet : Bool}

end Actions

/-! ## One step and all runs -/

section Runs

variable {s t : BlacklistPool × BlacklistBooks} {label : BlacklistLabel}

def answering : RedisEnv := ⟨none, "invalid expire time"⟩

/-- What a script asks of the instances. -/
abbrev BlacklistMove := Pool.Move BlacklistCall BlacklistCluster.Passes

def acting (index : Nat) : BlacklistMove := .run index answering

/-- Whether an action surely meets its condition. -/
def BlacklistNote.admits (note : BlacklistNote) (history : List BlacklistEvent) (env : RedisEnv)
    (s : BlacklistCluster) : Bool :=
  match note with
  | .set _ ttl => (RedisCache.setError ttl env).isNone
  | .find index tokenId => decide (tokenId ∉ s.locals index) ||
      (entryOf tokenId history).any fun entry => !entry.1.isExpired s.clock
  | .existsKey tokenId => (entryOf tokenId history).all fun entry =>
    decide (s.clock < entry.2) == !entry.1.isExpired s.clock
  | .deleteKeys _ => false
  | _ => true

def BlacklistEvent.finds (tokenId : String) : BlacklistEvent → Bool
  | .answered other _ answer => other = tokenId && answer
  | _ => false

end Runs

end UHorse.Cache
