import UHorse.Cache.SessionCache

/-!
# Deleted and expired sessions

A history is kept of what was set, refreshed and deleted, and of the lookups that found a session,
each with the length of the history when its call began. Deleted sessions stay deleted, and expired
ones expired, just as long as no local cache holds one, no tenant is deleted by an instance that
does not list all of its sessions, and reading a key does not prolong its life.
-/

namespace UHorse.Cache

open UHorse.Lib UHorse.Protocol

/-! ## Histories -/

/-- What happened; what is set or refreshed comes with the time at which it expires. -/
inductive SessionEvent
  | put (session : SessionData) (deadline : DateTime)
  | set (session : SessionData) (deadline : DateTime)
  | refreshed (sessionId : String) (deadline : DateTime)
  | deleted (sessionId : String)
  | deletedTenant (tenantId : String)
  | found (sessionId tenantId : String) (born : Nat) (returned : Bool) (now : DateTime)
deriving DecidableEq

/-- The session or its tenant was deleted when the history was shorter than `born`, and the session
was not set since. -/
def Deleted (born : Nat) (sessionId tenantId : String) : List SessionEvent → Prop
  | [] => False
  | .put session _ :: before | .set session _ :: before =>
    session.sessionId ≠ sessionId ∧ Deleted born sessionId tenantId before
  | .deleted other :: before =>
    other = sessionId ∧ before.length < born ∨ Deleted born sessionId tenantId before
  | .deletedTenant other :: before =>
    other = tenantId ∧ before.length < born ∨ Deleted born sessionId tenantId before
  | .refreshed .. :: before | .found .. :: before => Deleted born sessionId tenantId before

/-- The time to live has not elapsed since the session was last set or refreshed, or since a later
set began. -/
def Fresh (now : DateTime) (sessionId : String) : List SessionEvent → Prop
  | [] => False
  | .put session deadline :: before =>
    session.sessionId = sessionId ∧ now < deadline ∨ Fresh now sessionId before
  | .set session deadline :: before =>
    if session.sessionId = sessionId then now < deadline else Fresh now sessionId before
  | .refreshed other deadline :: before =>
    if other = sessionId then now < deadline else Fresh now sessionId before
  | .deleted _ :: before | .deletedTenant _ :: before | .found .. :: before =>
    Fresh now sessionId before

/-- Whether an event may follow on others. -/
def SessionEvent.Follows (before : List SessionEvent) : SessionEvent → Prop
  | .found sessionId tenantId born returned now =>
    ¬ Deleted born sessionId tenantId before ∧ (returned = true → Fresh now sessionId before)
  | _ => True

/-- The tenant a call deletes and the listed sessions it has not deleted yet. -/
abbrev Deleting := Option (String × List String)

abbrev SessionPool (C : Type) := Pool (SessionCluster C) RedisEnv SessionNote Unit Deleting

abbrev SessionLabel (C : Type) := PoolLabel (SessionCluster C) RedisEnv SessionNote Unit

variable {C : Type} (lru : LruCache C)

def deleting : Observer (SessionCluster C) RedisEnv SessionNote Deleting where
  start := none
  see seen note env s :=
    match note with
    | .list index tenantId => some (tenantId, s.tenantSessions lru index tenantId)
    | .delete sessionId =>
      if (RedisCache.deleteError env).isSome then none
      else seen.map fun rest => (rest.1, rest.2.filter (· ≠ sessionId))
    | .deletedTenant _ => none
    | _ => seen

/-- The calls of instances that share the Redis. -/
inductive SessionCall : SessionProcess C Unit → Prop
  | set (self : SessionCache) (shared : self.redis.isSome) (session : SessionData) :
      SessionCall (self.set lru session).discard
  | get (self : SessionCache) (shared : self.redis.isSome) (sessionId : String) :
      SessionCall (self.get lru sessionId).discard
  | delete (self : SessionCache) (shared : self.redis.isSome) (sessionId : String) :
      SessionCall (self.delete lru sessionId).discard
  | existsSession (self : SessionCache) (shared : self.redis.isSome) (sessionId : String) :
      SessionCall (self.existsSession lru sessionId).discard
  | refresh (self : SessionCache) (shared : self.redis.isSome) (sessionId : String) :
      SessionCall (self.refresh lru sessionId).discard
  | deleteTenantSessions (self : SessionCache) (shared : self.redis.isSome) (tenantId : String) :
      SessionCall (self.deleteTenantSessions lru tenantId).discard

/-- Time passes. -/
def SessionCluster.Passes (s t : SessionCluster C) : Prop :=
  ∃ clock, s.clock ≤ clock ∧ t = { s with clock }

/-- The history, and its length when each call began. -/
structure SessionBooks where
  history : List SessionEvent
  births : List Nat

/-- The deadline that `EXPIRE` sets. -/
def expiryAfter (now : DateTime) (ttl : Duration) : DateTime :=
  now + (UInt64.ofNat ttl.secs).toInt64.toInt * 1000000000

/-- What an action adds to the history, the latest event first. -/
def sessionEntries (born : Nat) (note : SessionNote) (env : RedisEnv) (s : SessionCluster C) :
    List SessionEvent :=
  match note with
  | .put _ session ttl => [.put session (s.clock + seconds ttl.secs)]
  | .set session ttl =>
    if (RedisCache.setError ttl env).isSome then []
    else [.set session (s.clock + seconds ttl.secs)]
  | .look index sessionId =>
    match lru.peek (s.locals index) sessionId with
    | some session => [.found sessionId session.tenantId born true s.clock]
    | none => []
  | .has index sessionId =>
    match lru.peek (s.locals index) sessionId with
    | some session => [.found sessionId session.tenantId born false s.clock]
    | none => []
  | .fetch sessionId =>
    match RedisCache.getError env, s.get (sessionKey sessionId) with
    | none, some session => [.found sessionId session.tenantId born true s.clock]
    | _, _ => []
  | .existsKey sessionId =>
    match RedisCache.existsError env, s.get (sessionKey sessionId) with
    | none, some session => [.found sessionId session.tenantId born false s.clock]
    | _, _ => []
  | .refresh sessionId ttl =>
    match RedisCache.expireError env, s.get (sessionKey sessionId) with
    | none, some _ => [.refreshed sessionId (expiryAfter s.clock ttl)]
    | _, _ => []
  | .delete sessionId =>
    if (RedisCache.deleteError env).isSome then [] else [.deleted sessionId]
  | .deletedTenant tenantId => [.deletedTenant tenantId]
  | _ => []

/-- The books after a step. -/
def sessionBook (books : SessionBooks) (s : SessionPool C) : SessionLabel C → SessionBooks
  | .spawn _ => { books with births := books.births ++ [books.history.length] }
  | .run index env =>
    match s.threads[index]? with
    | some ⟨.act note _ _ _, _⟩ =>
      { books with
        history :=
          sessionEntries lru (books.births[index]?.getD 0) note env s.shared ++ books.history }
    | _ => books
  | .background _ => books

/-- All interleavings of calls of instances that start with nothing, with their books. -/
def sessions : System (SessionPool C × SessionBooks) (SessionLabel C) :=
  (Pool.system (deleting lru) (SessionCall lru) SessionCluster.Passes
    (fun s => s.redis = [])).observe ⟨[], []⟩ (sessionBook lru)

/-! ## What the steps have to meet -/

/-- What an action has to meet for later lookups in Redis. -/
def SessionNote.Guarded (books : SessionBooks) (seen : List Deleting) (env : RedisEnv)
    (s : SessionCluster C) : SessionNote → Prop
  | .list index tenantId => ∀ sessionId session, s.get (sessionKey sessionId) = some session →
      session.tenantId = tenantId → sessionId ∈ s.tenantSessions lru index tenantId
  | .set session ttl => RedisCache.setError ttl env = none →
      ∀ rest, some (session.tenantId, rest) ∉ seen
  | .touchKey sessionId ttl => RedisCache.expireError env = none →
      (s.get (sessionKey sessionId)).isSome → ∀ now, s.clock ≤ now →
        now < expiryAfter s.clock ttl → Fresh now sessionId books.history
  | _ => True

/-- A deletion of a tenant lists all its sessions in Redis, no session of a tenant is written to
Redis while the tenant is deleted, and reading a key does not prolong its life. -/
def RedisGuarded (s : SessionPool C × SessionBooks) : SessionLabel C → Prop
  | .run index env => ∀ note ready act next seen,
      s.1.threads[index]? = some ⟨.act note ready act next, seen⟩ →
      note.Guarded lru s.2 (s.1.threads.map Thread.seen) env s.1.shared
  | _ => True

/-! ## What actions do to Redis -/

def SessionNote.redisAfter (note : SessionNote) (env : RedisEnv) (s : SessionCluster C) :
    ExpiringMap String SessionData DateTime :=
  match note with
  | .set session ttl =>
    if (RedisCache.setError ttl env).isSome then s.redis
    else (s.setEx (sessionKey session.sessionId) session ttl).redis
  | .delete sessionId =>
    if (RedisCache.deleteError env).isSome then s.redis else (s.del (sessionKey sessionId)).redis
  | .refresh sessionId ttl | .touchKey sessionId ttl =>
    if (RedisCache.expireError env).isSome then s.redis
    else (s.expire (sessionKey sessionId) ttl).redis
  | _ => s.redis

/-- A deletion of a tenant ends when every listed session is deleted. -/
def SessionNote.Does (seen : Deleting) (note : SessionNote) (env : RedisEnv)
    (s t : SessionCluster C) : Prop :=
  t.redis = note.redisAfter env s ∧ t.clock = s.clock ∧
    ∀ tenantId, note = .deletedTenant tenantId → seen = some (tenantId, [])

section Calls

variable {lru} {α β : Type} {seen : Deleting}

abbrev DoesSessions (lru : LruCache C) (process : SessionProcess C α) (seen : Deleting)
    (post : α → Deleting → Prop) : Prop :=
  process.Doing (deleting lru) SessionNote.Does seen post

theorem sessions_pure (value : α) : DoesSessions lru (pure value) seen fun _ _ => True :=
  Program.Keeps.pure trivial

theorem sessions_bind {process : SessionProcess C α} {rest : α → SessionProcess C β}
    (first : DoesSessions lru process seen fun _ _ => True)
    (second : ∀ value seen, DoesSessions lru (rest value) seen fun _ _ => True) :
    DoesSessions lru (process >>= rest) seen fun _ _ => True :=
  Program.Keeps.bind first fun value seen _ => second value seen

theorem sessions_update {note : SessionNote}
    {run : RedisEnv → SessionCluster C → SessionCluster C} {value : RedisEnv → SessionCluster C → α}
    {post : α → Deleting → Prop}
    (does : ∀ env s, (run env s).redis = note.redisAfter env s ∧ (run env s).clock = s.clock)
    (open_ : ∀ tenantId, note ≠ .deletedTenant tenantId)
    (after : ∀ env s, post (value env s) ((deleting lru).see seen note env s)) :
    DoesSessions lru (Program.update note run value) seen post :=
  Program.Doing.update
    (fun env s =>
      ⟨(does env s).1, (does env s).2, fun tenantId same => absurd same (open_ tenantId)⟩)
    after

theorem sessions_command {note : SessionNote} {error : RedisEnv → Option String}
    {run : SessionCluster C → SessionCluster C} {value : SessionCluster C → α}
    (does : ∀ env s, note.redisAfter env s =
      if (error env).isSome then s.redis else (run s).redis) (clock : ∀ s, (run s).clock = s.clock)
    (open_ : ∀ tenantId, note ≠ .deletedTenant tenantId) :
    DoesSessions lru (RedisCache.command note error run value) seen fun _ _ => True := by
  refine sessions_update (fun env s => ?_) open_ fun _ _ => trivial
  rw [does]
  split
  · exact ⟨rfl, rfl⟩
  · exact ⟨rfl, clock s⟩

theorem redis_touchLocal (s : SessionCluster C) (index : Nat) (sessionId : String) :
    (s.touchLocal lru index sessionId).redis = s.redis ∧
      (s.touchLocal lru index sessionId).clock = s.clock := by
  rw [Cluster.touchLocal]
  split <;> exact ⟨rfl, rfl⟩

variable {self : SessionCache}

theorem sessions_set (shared : self.redis.isSome) (session : SessionData) :
    DoesSessions lru (self.set lru session) seen fun _ _ => True := by
  obtain ⟨redis, here⟩ := Option.isSome_iff_exists.mp shared
  rw [SessionCache.set]
  refine sessions_bind (sessions_update (fun _ _ => ⟨rfl, rfl⟩) nofun fun _ _ => trivial) ?_
  intro _ seen
  rw [here]
  exact sessions_command (fun _ _ => rfl) (fun _ => rfl) nofun

theorem sessions_redis_get (redis : RedisCache) (sessionId : String) :
    DoesSessions lru (redis.get (.fetch sessionId) (.touchKey sessionId redis.policy.defaultTtl)
      (sessionKey sessionId)) seen fun _ _ => True := by
  rw [RedisCache.get]
  refine sessions_bind (sessions_command (fun _ _ => (ite_self _).symm) (fun _ => rfl) nofun) ?_
  intro found seen
  split
  · split
    · refine sessions_bind ?_ fun _ _ => sessions_pure _
      exact sessions_command (fun _ _ => rfl) (fun _ => rfl) nofun
    · exact sessions_pure _
  · exact sessions_pure _

theorem sessions_get (sessionId : String) :
    DoesSessions lru (self.get lru sessionId) seen fun _ _ => True := by
  rw [SessionCache.get]
  refine sessions_bind (sessions_update (fun _ s => redis_touchLocal s _ _) nofun
    fun _ _ => trivial) ?_
  intro found seen
  split
  · exact sessions_pure _
  · exact sessions_pure _
  · refine sessions_bind (sessions_redis_get _ _) fun answer seen => ?_
    split
    · refine sessions_bind (sessions_update (fun _ _ => ⟨rfl, rfl⟩) nofun fun _ _ => trivial) ?_
      intro session seen
      refine sessions_bind (sessions_update (fun _ _ => ⟨rfl, rfl⟩) nofun fun _ _ => trivial) ?_
      exact fun _ _ => sessions_pure _
    · exact sessions_pure _

theorem sessions_existsSession (sessionId : String) :
    DoesSessions lru (self.existsSession lru sessionId) seen fun _ _ => True := by
  rw [SessionCache.existsSession]
  refine sessions_bind (sessions_update (fun _ _ => ⟨rfl, rfl⟩) nofun fun _ _ => trivial) ?_
  intro found seen
  split
  · exact sessions_command (fun _ _ => (ite_self _).symm) (fun _ => rfl) nofun
  · exact sessions_pure _

theorem sessions_refresh (shared : self.redis.isSome) (sessionId : String) :
    DoesSessions lru (self.refresh lru sessionId) seen fun _ _ => True := by
  obtain ⟨redis, here⟩ := Option.isSome_iff_exists.mp shared
  rw [SessionCache.refresh]
  refine sessions_bind (sessions_update (fun _ s => redis_touchLocal s _ _) nofun
    fun _ _ => trivial) ?_
  intro _ seen
  rw [here]
  exact sessions_command (fun _ _ => rfl) (fun _ => rfl) nofun

/-- A deletion within one of a tenant takes its session from those that are left. -/
theorem sessions_delete (shared : self.redis.isSome) (sessionId : String) :
    DoesSessions lru (self.delete lru sessionId) seen fun answer after =>
      ∀ value, answer = .ok value →
        after = seen.map fun rest => (rest.1, rest.2.filter (· ≠ sessionId)) := by
  obtain ⟨redis, here⟩ := Option.isSome_iff_exists.mp shared
  rw [SessionCache.delete]
  have popped : DoesSessions lru (Program.update (.pop self.index sessionId)
      (fun _ s => s.setLocal self.index (lru.pop (s.locals self.index) sessionId)) fun _ _ => ())
      seen fun _ after => after = seen :=
    sessions_update (fun _ _ => ⟨rfl, rfl⟩) nofun fun _ _ => rfl
  refine Program.Keeps.bind popped ?_
  rintro _ seen rfl
  rw [here]
  have deletes : DoesSessions lru (RedisCache.delete (.delete sessionId) (sessionKey sessionId))
      seen fun answer after => ∀ value, answer = .ok value →
        after = seen.map fun rest => (rest.1, rest.2.filter (· ≠ sessionId)) := by
    refine sessions_update (fun env s => ?_) nofun fun env s value answered => ?_
    · rw [SessionNote.redisAfter]
      split <;> exact ⟨rfl, rfl⟩
    · dsimp only [deleting]
      cases failed : RedisCache.deleteError env with
      | none => rfl
      | some message =>
        rw [failed] at answered
        cases answered
  refine Program.Keeps.bind deletes fun answer after known => ?_
  split
  · exact Program.Keeps.pure nofun
  · exact Program.Keeps.pure fun _ _ => known _ rfl

/-- The sessions that are left of a tenant are among those the loop has yet to delete. -/
theorem sessions_deleteAll (shared : self.redis.isSome) {tenantId : String}
    (sessionIds : List String) {left : List String} (within : left ⊆ sessionIds) :
    DoesSessions lru (self.deleteAll lru sessionIds) (some (tenantId, left)) fun answer after =>
      ∀ value, answer = .ok value → after = some (tenantId, []) := by
  induction sessionIds generalizing left with
  | nil =>
    rw [List.subset_nil.mp within]
    exact Program.Keeps.pure fun _ _ => rfl
  | cons sessionId rest ih =>
    rw [SessionCache.deleteAll]
    refine Program.Keeps.bind (sessions_delete shared sessionId) fun answer after known => ?_
    split
    · exact Program.Keeps.pure nofun
    · rw [known _ rfl]
      refine ih fun other member => ?_
      obtain ⟨inside, distinct⟩ := List.mem_filter.mp member
      exact (List.mem_cons.mp (within inside)).resolve_left (of_decide_eq_true distinct)

theorem sessions_deleteTenantSessions (shared : self.redis.isSome) (tenantId : String) :
    DoesSessions lru (self.deleteTenantSessions lru tenantId) seen fun _ _ => True := by
  rw [SessionCache.deleteTenantSessions]
  have lists : DoesSessions lru (self.getTenantSessions lru tenantId) seen fun sessionIds after =>
      after = some (tenantId, sessionIds) :=
    sessions_update (fun _ _ => ⟨rfl, rfl⟩) nofun fun _ _ => rfl
  refine Program.Keeps.bind lists ?_
  rintro sessionIds _ rfl
  refine Program.Keeps.bind (sessions_deleteAll shared sessionIds (List.Subset.refl _)) ?_
  intro answer after known
  split
  · exact sessions_pure _
  · rw [known _ rfl]
    refine sessions_bind ?_ fun _ _ => sessions_pure _
    refine Program.Doing.update (fun env s => ⟨rfl, rfl, ?_⟩) fun _ _ => trivial
    rintro _ ⟨⟩
    rfl

theorem sessions_call {process : SessionProcess C Unit} (call : SessionCall lru process) :
    DoesSessions lru process seen fun _ _ => True := by
  cases call with
  | set self shared session => exact Program.Doing.discard (sessions_set shared session)
  | get self shared sessionId => exact Program.Doing.discard (sessions_get sessionId)
  | delete self shared sessionId =>
    refine Program.Doing.discard ?_
    exact Program.Keeps.weaken (sessions_delete shared sessionId) fun _ _ _ => trivial
  | existsSession self shared sessionId =>
    exact Program.Doing.discard (sessions_existsSession sessionId)
  | refresh self shared sessionId =>
    exact Program.Doing.discard (sessions_refresh shared sessionId)
  | deleteTenantSessions self shared tenantId =>
    exact Program.Doing.discard (sessions_deleteTenantSessions shared tenantId)

end Calls

/-! ## What Redis holds -/

/-- The sessions that Redis finds now and later were not deleted and have not expired then. -/
def Lasts (s : SessionCluster C) (history : List SessionEvent) : Prop :=
  ∀ now, s.clock ≤ now → ∀ sessionId session,
    s.redis.live now (buildKey (sessionKey sessionId)) = some session →
    (∀ born, ¬ Deleted born sessionId session.tenantId history) ∧ Fresh now sessionId history

/-- All sessions in Redis of a tenant that is being deleted are left to be deleted. -/
def Listed (s : SessionCluster C) (seen : Deleting) : Prop :=
  ∀ rest ∈ seen, ∀ sessionId session, s.get (sessionKey sessionId) = some session →
    session.tenantId = rest.1 → sessionId ∈ rest.2

section Redis

variable {lru} {s t : SessionCluster C} {history : List SessionEvent} {note : SessionNote}
  {env : RedisEnv} {seen other : Deleting} {born : Nat} {books : SessionBooks}
  {all : List Deleting} {births : List Nat}

theorem sessionKey_eq_iff {sessionId other : String} :
    buildKey (sessionKey other) = buildKey (sessionKey sessionId) ↔ other = sessionId :=
  buildKey_inj.trans (String.append_right_inj "session:")

/-- What Redis finds after an action it found before, unless the action set it. -/
theorem get_after (does : note.Does seen env s t) {sessionId : String} {session : SessionData}
    (found : t.get (sessionKey sessionId) = some session) :
    s.get (sessionKey sessionId) = some session ∧
        (∀ deleted, note = .delete deleted → RedisCache.deleteError env = none →
          sessionId ≠ deleted) ∨
      ∃ ttl, note = .set session ttl ∧ RedisCache.setError ttl env = none := by
  obtain ⟨redis, clock, -⟩ := does
  rw [Cluster.get, clock, redis] at found
  cases note with
  | set stored ttl =>
    simp only [SessionNote.redisAfter] at found
    cases refused : RedisCache.setError ttl env with
    | some message =>
      rw [refused] at found
      exact .inl ⟨found, by rintro _ ⟨⟩⟩
    | none =>
      rw [refused] at found
      have found : (s.setEx (sessionKey stored.sessionId) stored ttl).redis.live s.clock
        (buildKey (sessionKey sessionId)) = some session := found
      rw [Cluster.setEx, ExpiringMap.live_insert] at found
      split_ifs at found with same live
      · cases found
        exact .inr ⟨ttl, rfl, refused⟩
      · exact .inl ⟨found, by rintro _ ⟨⟩⟩
  | delete deleted =>
    simp only [SessionNote.redisAfter] at found
    left
    cases refused : RedisCache.deleteError env with
    | some message =>
      rw [refused] at found
      exact ⟨found, by rintro _ - ⟨⟩⟩
    | none =>
      rw [refused] at found
      have found : (s.del (sessionKey deleted)).redis.live s.clock
        (buildKey (sessionKey sessionId)) = some session := found
      rw [Cluster.del, ExpiringMap.live_erase] at found
      split_ifs at found with same
      refine ⟨found, ?_⟩
      rintro _ ⟨⟩ - rfl
      exact same rfl
  | refresh extended ttl | touchKey extended ttl =>
    simp only [SessionNote.redisAfter] at found
    refine .inl ⟨?_, by rintro _ ⟨⟩⟩
    cases refused : RedisCache.expireError env with
    | some message =>
      rw [refused] at found
      exact found
    | none =>
      rw [refused] at found
      have found : (s.expire (sessionKey extended) ttl).redis.live s.clock
        (buildKey (sessionKey sessionId)) = some session := found
      rw [Cluster.expire, ExpiringMap.live_extend le_rfl] at found
      split_ifs at found with same live
      · rw [Cluster.get, same]
        exact found
      · exact found
  | _ => exact .inl ⟨found, by rintro _ ⟨⟩⟩

/-- An action of another call leaves what is listed complete. -/
theorem Listed.kept (listed : Listed s other) (does : note.Does seen env s t)
    (guarded : note.Guarded lru books all env s) (member : other ∈ all) : Listed t other := by
  intro rest here sessionId session found tenant
  obtain ⟨before, -⟩ | ⟨ttl, rfl, stored⟩ := get_after does found
  · exact listed rest here sessionId session before tenant
  · refine absurd member (fun member => guarded stored rest.2 ?_)
    rw [tenant]
    cases Option.mem_def.mp here
    exact member

/-- What a call has listed is complete after each of its actions. -/
theorem Listed.own (listed : Listed s seen) (does : note.Does seen env s t)
    (guarded : note.Guarded lru books all env s) (member : seen ∈ all) :
    Listed t ((deleting lru).see seen note env s) := by
  cases note with
  | list index tenantId =>
    intro rest here sessionId session found tenant
    cases Option.mem_some_iff.mp here
    obtain ⟨before, -⟩ | ⟨ttl, same, -⟩ := get_after does found
    · exact guarded sessionId session before tenant
    · cases same
  | deletedTenant tenantId => exact nofun
  | delete deleted =>
    intro rest here sessionId session found tenant
    dsimp only [deleting] at here
    split at here
    · cases here
    · next ran =>
        obtain ⟨old, inside, rfl⟩ := Option.map_eq_some_iff.mp (Option.mem_def.mp here)
        obtain ⟨before, distinct⟩ | ⟨ttl, same, -⟩ := get_after does found
        · refine List.mem_filter.mpr ⟨listed old inside sessionId session before tenant, ?_⟩
          exact decide_eq_true (distinct deleted rfl (Option.not_isSome_iff_eq_none.mp ran))
        · cases same
  | _ => exact listed.kept does guarded member

theorem Lasts.set (lasts : Lasts s history) (session : SessionData) (ttl : Duration) :
    Lasts (s.setEx (sessionKey session.sessionId) session ttl)
      (.set session (s.clock + seconds ttl.secs) :: history) := by
  intro now after sessionId found here
  rw [Cluster.setEx, ExpiringMap.live_insert] at here
  split_ifs at here with same live
  · cases here
    have same := sessionKey_eq_iff.mp same
    refine ⟨fun born deleted => deleted.1 same.symm, ?_⟩
    rw [Fresh, if_pos same.symm]
    exact live
  · obtain ⟨undeleted, fresh⟩ := lasts now after sessionId found here
    refine ⟨fun born deleted => undeleted born deleted.2, ?_⟩
    rw [Fresh, if_neg (fun same' => same (sessionKey_eq_iff.mpr same'.symm))]
    exact fresh

theorem Lasts.delete (lasts : Lasts s history) (deleted : String) :
    Lasts (s.del (sessionKey deleted)) (.deleted deleted :: history) := by
  intro now after sessionId found here
  rw [Cluster.del, ExpiringMap.live_erase] at here
  split_ifs at here with same
  obtain ⟨undeleted, fresh⟩ := lasts now after sessionId found here
  refine ⟨?_, fresh⟩
  rintro born (⟨rfl, -⟩ | before)
  · exact same rfl
  · exact undeleted born before

/-- A key that is prolonged lasts if the history says so. -/
theorem Lasts.expire {sessionId : String} {ttl : Duration} (entries : List SessionEvent)
    (lasts : Lasts s history)
    (deleted : ∀ born other tenantId, Deleted born other tenantId (entries ++ history) →
      Deleted born other tenantId history)
    (others : ∀ now other, other ≠ sessionId → Fresh now other history →
      Fresh now other (entries ++ history))
    (fresh : (s.get (sessionKey sessionId)).isSome → ∀ now, s.clock ≤ now →
      now < expiryAfter s.clock ttl → Fresh now sessionId (entries ++ history)) :
    Lasts (s.expire (sessionKey sessionId) ttl) (entries ++ history) := by
  intro now after other session here
  have after : s.clock ≤ now := after
  rw [Cluster.expire, ExpiringMap.live_extend after] at here
  split_ifs at here with same live
  · have same := sessionKey_eq_iff.mp same
    subst same
    obtain ⟨undeleted, -⟩ := lasts s.clock le_rfl other session here
    refine ⟨fun born gone => undeleted born (deleted _ _ _ gone), fresh ?_ now after live⟩
    rw [Cluster.get, here]
    rfl
  · obtain ⟨undeleted, still⟩ := lasts now after other session here
    refine ⟨fun born gone => undeleted born (deleted _ _ _ gone), others now other ?_ still⟩
    rintro rfl
    exact same rfl

/-- An action that is guarded leaves in Redis only sessions that were not deleted and have not
expired. -/
theorem Lasts.step (lasts : Lasts s history) (listed : Listed s seen)
    (does : note.Does seen env s t) (guarded : note.Guarded lru ⟨history, births⟩ all env s) :
    Lasts t (sessionEntries lru born note env s ++ history) := by
  obtain ⟨redis, clock, ends⟩ := does
  have moved : ∀ {u : SessionCluster C} {events : List SessionEvent}, Lasts u events →
      t.redis = u.redis → u.clock = s.clock → Lasts t events := by
    intro u events held same still now after
    rw [same]
    exact held now ((still.trans clock.symm).le.trans after)
  cases note with
  | put index session ttl =>
    refine moved (u := s) (fun now after sessionId found here => ?_) redis rfl
    obtain ⟨undeleted, fresh⟩ := lasts now after sessionId found here
    exact ⟨fun born gone => undeleted born gone.2, .inr fresh⟩
  | set session ttl =>
    simp only [sessionEntries, SessionNote.redisAfter] at redis ⊢
    cases refused : RedisCache.setError ttl env with
    | none =>
      rw [refused] at redis
      exact moved (lasts.set session ttl) redis rfl
    | some message =>
      rw [refused] at redis
      exact moved lasts redis rfl
  | look index sessionId | has index sessionId =>
    simp only [sessionEntries]
    split
    · exact moved (u := s) (fun now after other => lasts now after other) redis rfl
    · exact moved lasts redis rfl
  | fetch sessionId | existsKey sessionId =>
    simp only [sessionEntries]
    split
    · exact moved (u := s) (fun now after other => lasts now after other) redis rfl
    · exact moved lasts redis rfl
  | refresh sessionId ttl =>
    simp only [sessionEntries, SessionNote.redisAfter] at redis ⊢
    cases refused : RedisCache.expireError env with
    | some message =>
      rw [refused] at redis
      exact moved lasts redis rfl
    | none =>
      rw [refused] at redis
      refine moved (Lasts.expire _ lasts ?_ ?_ ?_) redis rfl
      · intro born other tenantId gone
        split at gone <;> exact gone
      · intro now other distinct fresh
        split
        · exact (if_neg (Ne.symm distinct)).mpr fresh
        · exact fresh
      · intro isLive now after live
        obtain ⟨session, here⟩ := Option.isSome_iff_exists.mp isLive
        rw [here]
        exact (if_pos rfl).mpr live
  | touchKey sessionId ttl =>
    simp only [SessionNote.redisAfter] at redis
    cases refused : RedisCache.expireError env with
    | some message =>
      rw [refused] at redis
      exact moved lasts redis rfl
    | none =>
      rw [refused] at redis
      exact moved (Lasts.expire [] lasts (fun _ _ _ gone => gone)
        (fun _ _ _ fresh => fresh) (guarded refused)) redis rfl
  | delete sessionId =>
    simp only [sessionEntries, SessionNote.redisAfter] at redis ⊢
    cases refused : RedisCache.deleteError env with
    | none =>
      rw [refused] at redis
      exact moved (lasts.delete sessionId) redis rfl
    | some message =>
      rw [refused] at redis
      exact moved lasts redis rfl
  | deletedTenant tenantId =>
    refine moved (u := s) (fun now after sessionId session here => ?_) redis rfl
    obtain ⟨undeleted, fresh⟩ := lasts now after sessionId session here
    refine ⟨?_, fresh⟩
    rintro born (⟨rfl, -⟩ | before)
    · have left := listed _ (ends _ rfl) sessionId session (ExpiringMap.live_of_le after here) rfl
      cases left
    · exact undeleted born before
  | _ => exact moved lasts redis rfl

end Redis

/-! ## One step and all runs -/

variable {lru} {s t : SessionPool C × SessionBooks} {label : SessionLabel C}

/-- What holds of the pool and its history as long as Redis is guarded. -/
structure Guarded (lru : LruCache C) (s : SessionPool C × SessionBooks) : Prop where
  doing : s.1.Doing (deleting lru) SessionNote.Does
  lasts : Lasts s.1.shared s.2.history
  listed : ∀ thread ∈ s.1.threads, Listed s.1.shared thread.seen

theorem Guarded.step (guarded : Guarded lru s) (guard : RedisGuarded lru s label)
    (step : (sessions lru).Step s label t) : Guarded lru t := by
  obtain ⟨pool, books⟩ := s
  obtain ⟨after, _⟩ := t
  obtain ⟨doing, lasts, listed⟩ := guarded
  obtain ⟨step, rfl⟩ := step
  have doing' := doing.step (fun _ => sessions_call) step
  dsimp only at lasts listed step
  cases step with
  | spawn process call =>
    refine ⟨doing', lasts, List.forall_mem_append.mpr ⟨listed, ?_⟩⟩
    exact List.forall_mem_singleton.mpr nofun
  | background shared passes =>
    obtain ⟨clock, later, rfl⟩ := passes
    refine ⟨doing', fun now reached => lasts now (later.trans reached), ?_⟩
    intro thread member rest here sessionId session found
    exact listed thread member rest here sessionId session (ExpiringMap.live_of_le later found)
  | run index env note ready act next seen here enabled =>
    have member := List.mem_of_getElem? here
    have does := doing.action here enabled env
    have guarded := guard note ready act next seen here
    have present : seen ∈ pool.threads.map Thread.seen := List.mem_map_of_mem member
    refine ⟨doing', ?_, ?_⟩
    · simp only [sessionBook, here]
      exact lasts.step (listed _ member) does guarded
    · intro thread inside
      obtain old | rfl := List.mem_or_eq_of_mem_set inside
      · exact (listed thread old).kept does guarded (List.mem_map_of_mem old)
      · exact (listed _ member).own does guarded present

/-- A cache of a few sessions, the latest one first. -/
def listLru (capacity : Nat) : LruCache (List (String × SessionData)) where
  peek c sessionId := (c.find? (·.1 = sessionId)).map Prod.snd
  put c sessionId session := ((sessionId, session) :: c.filter (·.1 ≠ sessionId)).take capacity
  pop c sessionId := c.filter (·.1 ≠ sessionId)
  values c := c.map Prod.snd

def sampleSession : SessionData := ⟨"session-1", "tenant-1", .null, 0, 0⟩

/-- What a script asks of the instances. -/
abbrev ListMove := Pool.Move (SessionCall (listLru 2)) SessionCluster.Passes

def performing (index : Nat) : ListMove := .run index ⟨none, "invalid expire time"⟩

instance decidableDeleted (born : Nat) (sessionId tenantId : String) :
    (history : List SessionEvent) → Decidable (Deleted born sessionId tenantId history)
  | [] => inferInstanceAs (Decidable False)
  | .put _ _ :: before | .set _ _ :: before =>
    have := decidableDeleted born sessionId tenantId before
    inferInstanceAs (Decidable (_ ∧ _))
  | .deleted _ :: before | .deletedTenant _ :: before =>
    have := decidableDeleted born sessionId tenantId before
    inferInstanceAs (Decidable (_ ∧ _ ∨ _))
  | .refreshed _ _ :: before | .found _ _ _ _ _ :: before =>
    decidableDeleted born sessionId tenantId before

instance decidableFresh (now : DateTime) (sessionId : String) :
    (history : List SessionEvent) → Decidable (Fresh now sessionId history)
  | [] => inferInstanceAs (Decidable False)
  | .put _ _ :: before =>
    have := decidableFresh now sessionId before
    inferInstanceAs (Decidable (_ ∧ _ ∨ _))
  | .set session deadline :: before =>
    have := decidableFresh now sessionId before
    inferInstanceAs (Decidable
      (if session.sessionId = sessionId then now < deadline else Fresh now sessionId before))
  | .refreshed other deadline :: before =>
    have := decidableFresh now sessionId before
    inferInstanceAs (Decidable
      (if other = sessionId then now < deadline else Fresh now sessionId before))
  | .deleted _ :: before | .deletedTenant _ :: before | .found _ _ _ _ _ :: before =>
    decidableFresh now sessionId before

/-- Whether an action surely meets its conditions. -/
def SessionNote.admits (note : SessionNote) (books : SessionBooks) (born : Nat)
    (seen : List Deleting) (s : SessionCluster (List (String × SessionData))) : Bool :=
  match note with
  | .look index sessionId => ((listLru 2).peek (s.locals index) sessionId).all fun session =>
    !decide (Deleted born sessionId session.tenantId books.history) &&
      decide (Fresh s.clock sessionId books.history)
  | .has index sessionId => ((listLru 2).peek (s.locals index) sessionId).all fun session =>
    !decide (Deleted born sessionId session.tenantId books.history)
  | .list index tenantId => s.redis.all fun entry =>
    decide (entry.2.1.tenantId ≠ tenantId) ||
      decide (entry.1 = buildKey (sessionKey entry.2.1.sessionId)) &&
        decide (entry.2.1.sessionId ∈ s.tenantSessions (listLru 2) index tenantId)
  | .set session _ => seen.all fun deleting => deleting.all fun rest => rest.1 ≠ session.tenantId
  | .touchKey .. => false
  | _ => true

end UHorse.Cache
