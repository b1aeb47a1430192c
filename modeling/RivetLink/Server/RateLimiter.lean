import RivetLink.Foundation.Transition
import RivetLink.Foundation.KeyedMap

/-!
# The sliding-window rate limiter

`RateLimiter::check` keeps for each client key the times of the accepted requests that are still
inside the window. Times and durations are in nanoseconds. When the map of keys is full, a sweep
drops the idle keys, at most once per `sweepInterval`.

The abstract side is the history of accepted requests. The hits that the limiter stores for a key
are a final part of it, and what is missing lies outside the window (`Limited.Ok`). The bound on
accepted requests in any interval of one window follows from that.
-/

namespace RivetLink.Server

open List Option RivetLink.Foundation

variable {κ : Type}

def maxTrackedKeys : Nat := 100000

def nanosPerSec : Nat := 1000000000

def sweepInterval : Nat := nanosPerSec

def asSecs (nanos : Nat) : Nat := nanos / nanosPerSec

structure RateLimiter (κ : Type) where
  buckets : KeyedMap κ (List Nat) := .empty
  lastSweep : Nat
  maxRequests : Nat
  window : Nat
  maxKeys : Nat := maxTrackedKeys

/-- A hit at time `t` is inside the window at time `now`. -/
def fresh (window now t : Nat) : Bool := now - t < window

namespace RateLimiter

def new (maxRequests window now : Nat) : RateLimiter κ where
  lastSweep := now
  maxRequests := maxRequests
  window := window

def isFull (l : RateLimiter κ) : Bool := l.maxKeys ≤ l.buckets.size

/-- Drop keys with no request inside the window. -/
def sweep (l : RateLimiter κ) (now : Nat) : RateLimiter κ :=
  if now - l.lastSweep < sweepInterval then l
  else
    { l with
      lastSweep := now
      buckets := l.buckets.retain fun _ hits => hits.getLast?.any (fresh l.window now) }

variable [DecidableEq κ]

def hits (l : RateLimiter κ) (key : κ) : List Nat := (l.buckets.find? key).getD []

def setHits (l : RateLimiter κ) (key : κ) (hits : List Nat) : RateLimiter κ :=
  { l with buckets := l.buckets.put key hits }

/-- The part of `check` that works on the entry of the key. -/
def record (l : RateLimiter κ) (key : κ) (now : Nat) : RateLimiter κ × Except Nat Unit :=
  let entry := (l.hits key).filter (fresh l.window now)
  if l.maxRequests ≤ entry.length then
    -- time until the oldest hit leaves the window
    let elapsed := now - entry.head?.getD now
    (l.setHits key entry, .error (max (asSecs (l.window - elapsed)) 1))
  else (l.setHits key (entry ++ [now]), .ok ())

/-- Record an attempt for the key; a refused one gets the seconds after which to retry. -/
def check (l : RateLimiter κ) (key : κ) (now : Nat) : RateLimiter κ × Except Nat Unit :=
  if l.isFull && !l.buckets.contains key then
    let swept := l.sweep now
    if swept.isFull then (swept, .error (max (asSecs l.window) 1))
    else swept.record key now
  else l.record key now

end RateLimiter

/-! ## The history -/

theorem RateLimiter.isFull_iff (l : RateLimiter κ) :
    l.isFull = true ↔ l.maxKeys ≤ l.buckets.size :=
  decide_eq_true_iff

theorem RateLimiter.sweep_spec (l : RateLimiter κ) (now : Nat) :
    (l.sweep now).window = l.window ∧ (l.sweep now).maxRequests = l.maxRequests ∧
      (l.sweep now).maxKeys = l.maxKeys ∧ (l.sweep now).buckets.size ≤ l.buckets.size := by
  unfold RateLimiter.sweep
  split
  · exact ⟨rfl, rfl, rfl, Nat.le_refl _⟩
  · exact ⟨rfl, rfl, rfl, KeyedMap.size_retain_le⟩

/-- A limiter with the time of the last call and the requests it has accepted so far. -/
structure Limited (κ : Type) where
  limiter : RateLimiter κ
  clock : Nat
  log : List (κ × Nat) := []

namespace Limited

def new (maxRequests window maxKeys now : Nat) : Limited κ where
  limiter := { RateLimiter.new maxRequests window now with maxKeys := maxKeys }
  clock := now

variable [DecidableEq κ]

/-- The times at which requests of a key were accepted. -/
def accepted (s : Limited κ) (key : κ) : List Nat :=
  (s.log.filter fun e => e.1 = key).map Prod.snd

/-- The state after a call with this outcome. -/
def after (s : Limited κ) (key : κ) (now : Nat) (outcome : RateLimiter κ × Except Nat Unit) :
    Limited κ :=
  match outcome with
  | (limiter, .ok ()) => ⟨limiter, now, s.log ++ [(key, now)]⟩
  | (limiter, .error _) => ⟨limiter, now, s.log⟩

/-- One call of `check`. Time does not go back. -/
def step (s : Limited κ) (call : κ × Nat) : Option (Limited κ) :=
  if call.2 < s.clock then none
  else some (s.after call.1 call.2 (s.limiter.check call.1 call.2))

end Limited

section Window

variable {window now t : Nat} {l : List Nat}

theorem fresh_iff : fresh window now t = true ↔ now - t < window := decide_eq_true_iff

/-- What is outside the window stays outside. -/
theorem fresh_mono {later : Nat} (hle : now ≤ later) (h : fresh window later t = true) :
    fresh window now t = true := by
  rw [fresh_iff] at h ⊢
  omega

theorem filter_fresh_of_stale (h : ∀ t ∈ l, fresh window now t = false) :
    l.filter (fresh window now) = [] :=
  filter_eq_nil_iff.2 fun t ht => by simp [h t ht]

/-- In a list in order, if the last hit is outside the window, all are. -/
theorem stale_of_last (hsorted : l.Pairwise (· ≤ ·))
    (h : l.getLast?.any (fresh window now) = false) :
    ∀ t ∈ l, fresh window now t = false := by
  obtain rfl | ⟨before, last, rfl⟩ := eq_nil_or_concat' l
  · exact fun t ht => by cases ht
  rw [getLast?_concat, any_some] at h
  intro t ht
  obtain ht | ht := mem_append.1 ht
  · -- an earlier hit is no younger than the last
    have hle : t ≤ last := (pairwise_append.1 hsorted).2.2 t ht last (mem_singleton_self _)
    rw [← Bool.not_eq_true, fresh_iff] at h ⊢
    omega
  · rw [mem_singleton.1 ht]
    exact h

/-- In a list in order, the hits inside the window come after those outside. -/
theorem filter_eq_dropWhile (hsorted : l.Pairwise (· ≤ ·)) :
    l.filter (fresh window now) = l.dropWhile fun t => !fresh window now t := by
  induction l with
  | nil => rfl
  | cons t l ih =>
    rw [pairwise_cons] at hsorted
    cases hfresh : fresh window now t with
    | false =>
      rw [filter_cons_of_neg (by simp [hfresh]), dropWhile_cons_of_pos (by simp [hfresh])]
      exact ih hsorted.2
    | true =>
      rw [dropWhile_cons_of_neg (by simp [hfresh])]
      refine filter_eq_self.2 fun t' ht' => ?_
      obtain rfl | ht' := mem_cons.1 ht'
      · exact hfresh
      · have hle := hsorted.1 t' ht'
        rw [fresh_iff] at hfresh ⊢
        omega

end Window

namespace Limited

variable [DecidableEq κ] {s t : Limited κ} {key k : κ} {now : Nat} {call : κ × Nat}

/-- The stored hits of each key are a final part of the accepted ones, the rest lies outside the
window, and no interval of one window holds more accepted requests than allowed. -/
structure Ok (s : Limited κ) : Prop where
  past : ∀ e ∈ s.log, e.2 ≤ s.clock
  sorted : (s.log.map Prod.snd).Pairwise (· ≤ ·)
  stored : ∀ key, ∃ dropped, s.accepted key = dropped ++ s.limiter.hits key ∧
    ∀ t ∈ dropped, fresh s.limiter.window s.clock t = false
  size : s.limiter.buckets.size ≤ s.limiter.maxKeys
  bounded : ∀ key start, ((s.accepted key).filter fun t =>
    start ≤ t ∧ t < start + s.limiter.window).length ≤ s.limiter.maxRequests

theorem Ok.accepted_sorted (hs : s.Ok) (key : κ) : (s.accepted key).Pairwise (· ≤ ·) :=
  hs.sorted.sublist (filter_sublist.map _)

/-- The stored hits tell all about the window. -/
theorem Ok.hits_fresh (hs : s.Ok) (hnow : s.clock ≤ now) :
    (s.limiter.hits key).filter (fresh s.limiter.window now) =
      (s.accepted key).filter (fresh s.limiter.window now) := by
  obtain ⟨dropped, heq, hstale⟩ := hs.stored key
  have hnone : dropped.filter (fresh s.limiter.window now) = [] := by
    refine filter_fresh_of_stale fun t ht => ?_
    rw [← Bool.not_eq_true]
    exact fun hfresh => absurd (fresh_mono hnow hfresh) (by simp [hstale t ht])
  rw [heq, filter_append, hnone, nil_append]

theorem Ok.hits_sorted (hs : s.Ok) (key : κ) : (s.limiter.hits key).Pairwise (· ≤ ·) := by
  obtain ⟨dropped, heq, -⟩ := hs.stored key
  refine hs.accepted_sorted key |>.sublist ?_
  rw [heq]
  exact sublist_append_right _ _

/-! ## Sweeps -/

/-- A sweep keeps the hits of a key, or drops them because all are outside the window. -/
theorem hits_sweep (l : RateLimiter κ) (now : Nat) (hsorted : (l.hits key).Pairwise (· ≤ ·)) :
    (l.sweep now).hits key = l.hits key ∨
      (l.sweep now).hits key = [] ∧ ∀ t ∈ l.hits key, fresh l.window now t = false := by
  unfold RateLimiter.sweep
  split
  · exact .inl rfl
  · unfold RateLimiter.hits at hsorted ⊢
    dsimp only
    rw [KeyedMap.find?_retain]
    cases hfind : l.buckets.find? key with
    | none => exact .inl rfl
    | some hits =>
      rw [hfind] at hsorted
      rw [filter_some]
      cases hlast : hits.getLast?.any (fresh l.window now) with
      | true => exact .inl rfl
      | false => exact .inr ⟨rfl, stale_of_last hsorted hlast⟩

/-- A sweep leaves everything in order and forgets no hit inside the window. -/
theorem Ok.sweep (hs : s.Ok) (hnow : s.clock ≤ now) :
    Ok ⟨s.limiter.sweep now, now, s.log⟩ ∧
      ∀ key, ((s.limiter.sweep now).hits key).filter (fresh s.limiter.window now) =
        (s.limiter.hits key).filter (fresh s.limiter.window now) := by
  obtain ⟨hwindow, hmax, hkeys, hsize⟩ := s.limiter.sweep_spec now
  refine ⟨⟨?_, hs.sorted, ?_, ?_, ?_⟩, ?_⟩
  · exact fun e he => Nat.le_trans (hs.past e he) hnow
  · intro key
    obtain ⟨dropped, heq, hstale⟩ := hs.stored key
    have hstale' : ∀ t ∈ dropped, fresh s.limiter.window now t = false := by
      intro t ht
      rw [← Bool.not_eq_true]
      exact fun hfresh => absurd (fresh_mono hnow hfresh) (by simp [hstale t ht])
    dsimp only
    rw [hwindow]
    obtain hsame | ⟨hnil, hall⟩ := hits_sweep s.limiter now (hs.hits_sorted key)
    · exact ⟨dropped, by rw [hsame]; exact heq, hstale'⟩
    · refine ⟨dropped ++ s.limiter.hits key, by rw [hnil, append_nil]; exact heq, ?_⟩
      intro t ht
      exact (mem_append.1 ht).elim (hstale' t) (hall t)
  · dsimp only
    rw [hkeys]
    exact Nat.le_trans hsize hs.size
  · dsimp only
    rw [hwindow, hmax]
    exact hs.bounded
  · intro key
    obtain hsame | ⟨hnil, hall⟩ := hits_sweep s.limiter now (hs.hits_sorted key)
    · rw [hsame]
    · rw [hnil, filter_fresh_of_stale hall, filter_nil]

/-! ## The entry of the key -/

theorem hits_setHits_self (l : RateLimiter κ) (hits : List Nat) :
    (l.setHits key hits).hits key = hits := by
  rw [RateLimiter.hits, RateLimiter.setHits, KeyedMap.find?_put_self, getD_some]

theorem hits_setHits_of_ne (l : RateLimiter κ) (hits : List Nat) (h : k ≠ key) :
    (l.setHits key hits).hits k = l.hits k := by
  rw [RateLimiter.hits, RateLimiter.setHits, KeyedMap.find?_put_of_ne h, RateLimiter.hits]

theorem accepted_append (log : List (κ × Nat)) (limiter : RateLimiter κ) (clock : Nat) :
    accepted ⟨limiter, clock, log ++ [(key, now)]⟩ k =
      accepted ⟨limiter, clock, log⟩ k ++ if k = key then [now] else [] := by
  rw [accepted, accepted, filter_append, map_append]
  by_cases hk : k = key
  · subst hk
    simp
  · simp [hk, Ne.symm hk]

/-- Stale hits of the key are dropped from its entry. -/
theorem Ok.purge (hs : s.Ok) (hnow : s.clock = now)
    (hroom : s.limiter.buckets.contains key = true ∨
      s.limiter.buckets.size < s.limiter.maxKeys) :
    Ok ⟨s.limiter.setHits key ((s.limiter.hits key).filter (fresh s.limiter.window now)), now,
      s.log⟩ := by
  subst hnow
  refine ⟨hs.past, hs.sorted, ?_, ?_, hs.bounded⟩
  · intro k
    by_cases hk : k = key
    · subst hk
      obtain ⟨dropped, heq, hstale⟩ := hs.stored k
      -- what is dropped from a list in order comes first
      have hsplit := takeWhile_append_dropWhile (l := s.limiter.hits k)
        (p := fun t => !fresh s.limiter.window s.clock t)
      have hrest : (s.limiter.hits k).filter (fresh s.limiter.window s.clock) =
          (s.limiter.hits k).dropWhile fun t => !fresh s.limiter.window s.clock t :=
        filter_eq_dropWhile (hs.hits_sorted k)
      refine ⟨dropped ++ (s.limiter.hits k).takeWhile fun t =>
        !fresh s.limiter.window s.clock t, ?_, ?_⟩
      · rw [hits_setHits_self, hrest, append_assoc, hsplit]
        exact heq
      · intro t ht
        obtain ht | ht := mem_append.1 ht
        · exact hstale t ht
        · have hnot := all_eq_true.1 all_takeWhile t ht
          have hstale' : fresh s.limiter.window s.clock t = false := by simpa using hnot
          exact hstale'
    · rw [hits_setHits_of_ne _ _ hk]
      exact hs.stored k
  · obtain hcontains | hlt := hroom
    · exact Nat.le_trans (KeyedMap.size_put_of_contains hcontains) hs.size
    · exact Nat.le_trans KeyedMap.size_put_le_succ hlt

/-- A request is accepted: its time is stored, and there was room for it in the window. -/
theorem Ok.accept (hs : s.Ok) (key : κ) (hnow : s.clock = now)
    (hall : ∀ t ∈ s.limiter.hits key, fresh s.limiter.window now t = true)
    (hcontains : s.limiter.buckets.contains key = true)
    (hlt : (s.limiter.hits key).length < s.limiter.maxRequests) :
    Ok ⟨s.limiter.setHits key (s.limiter.hits key ++ [now]), now, s.log ++ [(key, now)]⟩ := by
  subst hnow
  refine ⟨?_, ?_, ?_, Nat.le_trans (KeyedMap.size_put_of_contains hcontains) hs.size, ?_⟩
  · intro e he
    obtain he | he := mem_append.1 he
    · exact hs.past e he
    · exact Nat.le_of_eq (congrArg Prod.snd (mem_singleton.1 he))
  · dsimp only
    rw [map_append, pairwise_append]
    refine ⟨hs.sorted, pairwise_singleton _ _, fun t ht t' ht' => ?_⟩
    obtain ⟨e, he, rfl⟩ := mem_map.1 ht
    rw [mem_singleton.1 ht']
    exact hs.past e he
  · intro k
    rw [accepted_append]
    obtain ⟨dropped, heq, hstale⟩ := hs.stored k
    refine ⟨dropped, ?_, hstale⟩
    by_cases hk : k = key
    · subst hk
      rw [if_pos rfl, hits_setHits_self, ← append_assoc]
      exact congrArg (· ++ [s.clock]) heq
    · rw [if_neg hk, append_nil, hits_setHits_of_ne _ _ hk]
      exact heq
  · intro k start
    rw [accepted_append, filter_append, length_append]
    by_cases hk : k = key
    · subst hk
      rw [if_pos rfl]
      by_cases hin : start ≤ s.clock ∧ s.clock < start + s.limiter.window
      · -- every earlier request in the interval is still inside the window
        have hsub : ((s.accepted k).filter fun t =>
            start ≤ t ∧ t < start + s.limiter.window).length ≤
              ((s.accepted k).filter (fresh s.limiter.window s.clock)).length := by
          refine (monotone_filter_right _ fun t ht => ?_).length_le
          rw [decide_eq_true_eq] at ht
          rw [fresh_iff]
          omega
        rw [← hs.hits_fresh (Nat.le_refl _), filter_eq_self.2 hall] at hsub
        have hone : ([s.clock].filter fun t =>
            start ≤ t ∧ t < start + s.limiter.window).length ≤ 1 := length_filter_le _ _
        exact Nat.le_trans (Nat.add_le_add hsub hone) hlt
      · have hnone : [s.clock].filter (fun t => start ≤ t ∧ t < start + s.limiter.window) = [] := by
          simpa using hin
        refine Nat.le_trans (Nat.le_of_eq ?_) (hs.bounded k start)
        change _ + ([s.clock].filter fun t => start ≤ t ∧ t < start + s.limiter.window).length = _
        rw [hnone, length_nil, Nat.add_zero]
        rfl
    · rw [if_neg hk]
      exact hs.bounded k start

theorem step_eq_some :
    s.step call = some t ↔
      s.clock ≤ call.2 ∧ t = s.after call.1 call.2 (s.limiter.check call.1 call.2) := by
  unfold step
  by_cases hlt : call.2 < s.clock
  · simp [hlt, Nat.not_le.2 hlt]
  · simp [hlt, Nat.not_lt.1 hlt, eq_comm]

theorem Ok.record (hs : s.Ok) (key : κ) (hnow : s.clock = now)
    (hroom : s.limiter.buckets.contains key = true ∨
      s.limiter.buckets.size < s.limiter.maxKeys) :
    (s.after key now (s.limiter.record key now)).Ok := by
  have hpurge := hs.purge hnow hroom
  unfold RateLimiter.record
  dsimp only
  split
  · exact hpurge
  · rename_i hlt
    have haccept := hpurge.accept key rfl (fun t ht => ?_) ?_ ?_
    · rw [hits_setHits_self] at haccept
      dsimp only [RateLimiter.setHits] at haccept
      rw [KeyedMap.put_put] at haccept
      exact haccept
    · rw [hits_setHits_self] at ht
      exact (mem_filter.1 ht).2
    · exact isSome_iff_exists.2 ⟨_, KeyedMap.find?_put_self⟩
    · rw [hits_setHits_self]
      exact Nat.not_le.1 hlt

/-! ## Every call -/

/-- Time passes. -/
theorem Ok.wait (hs : s.Ok) (hnow : s.clock ≤ now) : Ok ⟨s.limiter, now, s.log⟩ where
  past e he := Nat.le_trans (hs.past e he) hnow
  sorted := hs.sorted
  stored key := by
    obtain ⟨dropped, heq, hstale⟩ := hs.stored key
    refine ⟨dropped, heq, fun t ht => ?_⟩
    rw [← Bool.not_eq_true]
    exact fun hfresh => absurd (fresh_mono hnow hfresh) (by simp [hstale t ht])
  size := hs.size
  bounded := hs.bounded

theorem Ok.check (hs : s.Ok) (hnow : s.clock ≤ now) :
    (s.after key now (s.limiter.check key now)).Ok := by
  unfold RateLimiter.check
  split
  · dsimp only
    obtain ⟨hswept, -⟩ := hs.sweep hnow
    split
    · exact hswept
    · rename_i hroom
      rw [RateLimiter.isFull_iff, Nat.not_le] at hroom
      exact hswept.record key rfl (.inr hroom)
  · rename_i hroom
    refine (hs.wait hnow).record key rfl ?_
    rw [Bool.and_eq_true, RateLimiter.isFull_iff, Bool.not_eq_true', not_and_or, Nat.not_le,
      Bool.not_eq_false] at hroom
    exact hroom.symm

/-- The settings of a limiter do not change. -/
theorem check_settings (l : RateLimiter κ) (key : κ) (now : Nat) :
    (l.check key now).1.window = l.window ∧ (l.check key now).1.maxRequests = l.maxRequests ∧
      (l.check key now).1.maxKeys = l.maxKeys := by
  have hrecord : ∀ l : RateLimiter κ, (l.record key now).1.window = l.window ∧
      (l.record key now).1.maxRequests = l.maxRequests ∧
        (l.record key now).1.maxKeys = l.maxKeys := by
    intro l
    unfold RateLimiter.record
    dsimp only
    split <;> exact ⟨rfl, rfl, rfl⟩
  obtain ⟨hwindow, hmax, hkeys, -⟩ := l.sweep_spec now
  unfold RateLimiter.check
  split
  · dsimp only
    split
    · exact ⟨hwindow, hmax, hkeys⟩
    · obtain ⟨h1, h2, h3⟩ := hrecord (l.sweep now)
      exact ⟨h1.trans hwindow, h2.trans hmax, h3.trans hkeys⟩
  · exact hrecord l

/-- The entry of a key refuses only if its window is full. -/
theorem Ok.full_of_record (hs : s.Ok) (hnow : s.clock ≤ now) {e : Nat}
    (herr : (s.limiter.record key now).2 = .error e) :
    s.limiter.maxRequests ≤ ((s.accepted key).filter (fresh s.limiter.window now)).length := by
  unfold RateLimiter.record at herr
  dsimp only at herr
  rw [hs.hits_fresh hnow] at herr
  split at herr
  · rename_i hfull
    exact hfull
  · cases herr

/-- The key has used up its window, or it is new and there is no room for it. -/
def Refused (s : Limited κ) (key : κ) (now : Nat) : Prop :=
  s.limiter.maxRequests ≤ ((s.accepted key).filter (fresh s.limiter.window now)).length ∨
    s.limiter.buckets.contains key = false ∧ s.limiter.buckets.size = s.limiter.maxKeys ∧
      ((∀ k, s.limiter.buckets.contains k = true →
          ∃ t ∈ s.accepted k, fresh s.limiter.window now t = true) ∨
        now - s.limiter.lastSweep < sweepInterval)

/-- If a sweep finds nothing to drop, all keys are inside their window. -/
theorem Ok.fresh_of_sweep (hs : s.Ok) (hdue : ¬ now - s.limiter.lastSweep < sweepInterval)
    (hfull : s.limiter.buckets.size ≤ (s.limiter.sweep now).buckets.size)
    (hk : s.limiter.buckets.contains k = true) :
    ∃ t ∈ s.accepted k, fresh s.limiter.window now t = true := by
  obtain ⟨hits, hhits⟩ := Option.isSome_iff_exists.1 hk
  rw [RateLimiter.sweep, if_neg hdue] at hfull
  have hlast := KeyedMap.pass_of_size_retain hfull hhits
  rw [Option.any_eq_true] at hlast
  obtain ⟨t, ht, hfresh⟩ := hlast
  obtain ⟨dropped, heq, -⟩ := hs.stored k
  refine ⟨t, ?_, hfresh⟩
  rw [heq, RateLimiter.hits, hhits, getD_some]
  exact mem_append_right _ (mem_of_getLast? ht)

theorem Ok.refused (hs : s.Ok) (hnow : s.clock ≤ now) {e : Nat}
    (herr : (s.limiter.check key now).2 = .error e) : s.Refused key now := by
  unfold RateLimiter.check at herr
  split at herr
  · rename_i hfull
    rw [Bool.and_eq_true, RateLimiter.isFull_iff, Bool.not_eq_true'] at hfull
    obtain ⟨hwindow, hmax, hkeys, -⟩ := s.limiter.sweep_spec now
    dsimp only at herr
    split at herr
    · rename_i hswept
      rw [RateLimiter.isFull_iff, hkeys] at hswept
      have hsize := Nat.le_antisymm hs.size hfull.1
      refine .inr ⟨hfull.2, hsize, ?_⟩
      by_cases hdue : now - s.limiter.lastSweep < sweepInterval
      · exact .inr hdue
      · exact .inl fun k => hs.fresh_of_sweep hdue (hsize ▸ hswept)
    · have hfull' := (hs.sweep hnow).1.full_of_record (Nat.le_refl _) herr
      dsimp only at hfull'
      rw [hwindow, hmax] at hfull'
      exact .inl hfull'
  · exact .inl (hs.full_of_record hnow herr)

theorem Ok.new (maxRequests window maxKeys now : Nat) :
    (Limited.new maxRequests window maxKeys now : Limited κ).Ok where
  past _ he := by cases he
  sorted := List.Pairwise.nil
  stored _ := ⟨[], rfl, nofun⟩
  size := Nat.zero_le _
  bounded _ _ := Nat.zero_le _

theorem settings_step (h : s.step call = some t) :
    t.limiter.window = s.limiter.window ∧ t.limiter.maxRequests = s.limiter.maxRequests ∧
      t.limiter.maxKeys = s.limiter.maxKeys := by
  obtain ⟨-, rfl⟩ := step_eq_some.1 h
  have hcheck := check_settings s.limiter call.1 call.2
  unfold after
  split <;> rename_i heq <;> rw [heq] at hcheck <;> exact hcheck

theorem ok_of_run {maxRequests window maxKeys start : Nat} {calls : List (κ × Nat)}
    (hrun : runFrom step (Limited.new maxRequests window maxKeys start) calls = some s) :
    s.Ok ∧ s.limiter.window = window ∧ s.limiter.maxRequests = maxRequests ∧
      s.limiter.maxKeys = maxKeys :=
  invariant_of_step (I := fun s => s.Ok ∧ s.limiter.window = window ∧
      s.limiter.maxRequests = maxRequests ∧ s.limiter.maxKeys = maxKeys)
    (fun s call t h hstep => by
      obtain ⟨hs, h1, h2, h3⟩ := h
      obtain ⟨h1', h2', h3'⟩ := settings_step hstep
      obtain ⟨hnow, rfl⟩ := step_eq_some.1 hstep
      exact ⟨hs.check hnow, h1'.trans h1, h2'.trans h2, h3'.trans h3⟩)
    ⟨Ok.new .., rfl, rfl, rfl⟩ hrun

/-- After any calls at times that do not go back: in every half-open interval of one window, each
key has had at most `maxRequests` requests accepted. The next call is refused only for one of the
two reasons of `Refused`. The stored hits inside the window are the accepted requests inside the
window, so refused calls do not count, and a sweep keeps all of them. The number of keys is
bounded. -/
theorem requests_limited {maxRequests window maxKeys start : Nat} {calls : List (κ × Nat)}
    (hrun : runFrom step (Limited.new maxRequests window maxKeys start) calls = some s) :
    (∀ key from_, ((s.accepted key).filter fun t =>
        from_ ≤ t ∧ t < from_ + window).length ≤ maxRequests) ∧
      (∀ key now e, s.clock ≤ now → (s.limiter.check key now).2 = .error e →
        s.Refused key now) ∧
      (∀ key now, s.clock ≤ now →
        (s.limiter.hits key).filter (fresh window now) =
            (s.accepted key).filter (fresh window now) ∧
          ((s.limiter.sweep now).hits key).filter (fresh window now) =
            (s.limiter.hits key).filter (fresh window now)) ∧
      s.limiter.buckets.size ≤ maxKeys := by
  obtain ⟨hs, rfl, rfl, rfl⟩ := ok_of_run hrun
  exact ⟨hs.bounded, fun key now e hnow => hs.refused hnow,
    fun key now hnow => ⟨hs.hits_fresh hnow, (hs.sweep hnow).2 key⟩, hs.size⟩

/-- Two requests per 10 ns for at most two keys: the third request of key 1 is refused, and so is a
third key. -/
def sampleCalls : List (Nat × Nat) := [(1, 0), (1, 4), (1, 8), (2, 8), (3, 9), (1, 10)]

def sampleLimited : Limited Nat :=
  (runFrom step (Limited.new 2 10 2 0) sampleCalls).get (by decide)

theorem requests_limited_sampleCalls :
    sampleLimited.log = [(1, 0), (1, 4), (2, 8), (1, 10)] ∧ sampleLimited.Refused 1 11 ∧
      sampleLimited.Refused 3 11 := by
  have hlimits := requests_limited (s := sampleLimited) (some_get _).symm
  exact ⟨by decide, hlimits.2.1 1 11 1 (by decide) (by decide),
    hlimits.2.1 3 11 1 (by decide) (by decide)⟩

/-! ## Retrying -/

/-- The accepted requests that are inside the window at time `now`. -/
def inWindow (s : Limited κ) (key : κ) (now : Nat) : List Nat :=
  (s.accepted key).filter (fresh s.limiter.window now)

/-- A call for another key leaves the history of this one. -/
theorem accepted_step (h : s.step call = some t) (hne : call.1 ≠ key) :
    t.accepted key = s.accepted key := by
  obtain ⟨-, rfl⟩ := step_eq_some.1 h
  unfold after
  split
  · rw [accepted_append, if_neg hne.symm, append_nil]
    rfl
  · rfl

theorem Ok.le_clock (hs : s.Ok) {hit : Nat} (hhit : hit ∈ s.accepted key) : hit ≤ s.clock := by
  obtain ⟨e, he, rfl⟩ := mem_map.1 hhit
  exact hs.past e (mem_filter.1 he).1

theorem Ok.length_inWindow (hs : s.Ok) (hnow : s.clock ≤ now) :
    (s.inWindow key now).length ≤ s.limiter.maxRequests := by
  refine Nat.le_trans ?_ (hs.bounded key (now + 1 - s.limiter.window))
  unfold inWindow
  rw [← countP_eq_length_filter, ← countP_eq_length_filter]
  refine countP_mono_left fun t ht hfresh => ?_
  have hpast := hs.le_clock ht
  rw [fresh_iff] at hfresh
  simp only [decide_eq_true_eq]
  omega

/-- A key that has room in the window and in the map is admitted. -/
theorem Ok.admits (hs : s.Ok) (hnow : s.clock ≤ now)
    (hroom : s.limiter.buckets.contains key = true ∨ (s.limiter.sweep now).isFull = false)
    (hlt : (s.inWindow key now).length < s.limiter.maxRequests) :
    (s.limiter.check key now).2 = .ok () := by
  rw [inWindow, ← hs.hits_fresh hnow] at hlt
  obtain ⟨hwindow, hmax, -, -⟩ := s.limiter.sweep_spec now
  unfold RateLimiter.check
  split
  · rename_i hfull
    rw [Bool.and_eq_true, Bool.not_eq_true'] at hfull
    have hswept : (s.limiter.sweep now).isFull = false :=
      hroom.resolve_left fun h => by simp [hfull.2] at h
    dsimp only
    rw [hswept, if_neg Bool.false_ne_true, RateLimiter.record, hwindow, hmax,
      (hs.sweep hnow).2 key, if_neg (Nat.not_le.2 hlt)]
  · rw [RateLimiter.record, if_neg (Nat.not_le.2 hlt)]

/-- A refusal for a full window tells when the oldest hit leaves it, in seconds rounded down. -/
theorem Ok.retryAfter (hs : s.Ok) (hnow : s.clock ≤ now) (hpos : 1 ≤ s.limiter.maxRequests)
    (hused : s.limiter.maxRequests ≤ (s.inWindow key now).length) {e : Nat}
    (herr : (s.limiter.check key now).2 = .error e) :
    ∃ oldest rest, s.inWindow key now = oldest :: rest ∧
      e = max (asSecs (s.limiter.window - (now - oldest))) 1 := by
  cases hlist : s.inWindow key now with
  | nil => simp [hlist] at hused; omega
  | cons oldest rest =>
    refine ⟨oldest, rest, rfl, ?_⟩
    have hhits : (s.limiter.hits key).filter (fresh s.limiter.window now) = s.inWindow key now :=
      hs.hits_fresh hnow
    rw [hlist] at hhits hused
    -- a key with hits is in the map
    have hcontains : s.limiter.buckets.contains key = true := by
      cases hfind : s.limiter.buckets.find? key with
      | none => simp [RateLimiter.hits, hfind] at hhits
      | some hits => exact isSome_iff_exists.2 ⟨hits, hfind⟩
    rw [RateLimiter.check, if_neg (by simp [hcontains]), RateLimiter.record, hhits,
      if_pos hused] at herr
    exact (Except.error.inj herr).symm

/-- When a key whose quota is used up comes back after the seconds it was told, it is admitted,
provided the time until its oldest hit leaves the window was a whole number of seconds or no more
than one, and that the other keys have left room for it in the map. -/
theorem retry_admitted {maxRequests window maxKeys start e : Nat} {calls others : List (κ × Nat)}
    (hrun : runFrom step (Limited.new maxRequests window maxKeys start) calls = some s)
    (hpos : 1 ≤ maxRequests) (hnow : s.clock ≤ now)
    (hused : maxRequests ≤ (s.inWindow key now).length)
    (herr : (s.limiter.check key now).2 = .error e)
    (hwhole : ∀ oldest ∈ (s.inWindow key now).head?,
      nanosPerSec ∣ window - (now - oldest) ∨ window - (now - oldest) ≤ nanosPerSec)
    (hothers : runFrom step (s.after key now (s.limiter.check key now)) others = some t)
    (hne : ∀ call ∈ others, call.1 ≠ key) (hclock : t.clock ≤ now + e * nanosPerSec)
    (hroom : t.limiter.buckets.contains key = true ∨
      (t.limiter.sweep (now + e * nanosPerSec)).isFull = false) :
    (t.limiter.check key (now + e * nanosPerSec)).2 = .ok () := by
  obtain ⟨hs, rfl, rfl, -⟩ := ok_of_run hrun
  obtain ⟨oldest, rest, hlist, rfl⟩ := hs.retryAfter hnow hpos hused herr
  set later := now + max (asSecs (s.limiter.window - (now - oldest))) 1 * nanosPerSec with hlater
  have hall : runFrom step (Limited.new s.limiter.maxRequests s.limiter.window maxKeys start)
      (calls ++ (key, now) :: others) = some t := by
    rw [runFrom_append, hrun]
    exact runFrom_cons_eq_some.2 ⟨_, step_eq_some.2 ⟨hnow, rfl⟩, hothers⟩
  obtain ⟨ht, hwindow, hmax, -⟩ := ok_of_run hall
  -- the refused call and the calls for other keys leave the history of the key
  have hsame : (s.after key now (s.limiter.check key now)).accepted key = s.accepted key := by
    unfold after
    split <;> rename_i heq
    · simp [heq] at herr
    · rfl
  have haccepted : t.accepted key = s.accepted key :=
    invariant_of_guardedStep (I := fun u : Limited κ => u.accepted key = s.accepted key)
      (G := fun _ call => call.1 ≠ key) (fun u call v hu hkey h => (accepted_step h hkey).trans hu)
      hsame (runMeets_of_forall_mem hne) hothers
  -- by then the oldest hit has left the window
  have hstale : fresh s.limiter.window later oldest = false := by
    have hw := hwhole oldest (by rw [hlist]; rfl)
    have hmem : oldest ∈ s.inWindow key now := hlist ▸ mem_cons_self
    have hpast := hs.le_clock (mem_filter.1 hmem).1
    have hle := Nat.le_max_left (asSecs (s.limiter.window - (now - oldest))) 1
    have hone := Nat.le_max_right (asSecs (s.limiter.window - (now - oldest))) 1
    rw [← Bool.not_eq_true, fresh_iff, hlater]
    generalize max (asSecs _) 1 = e at hle hone
    unfold asSecs nanosPerSec at *
    omega
  have hwindow' : t.inWindow key later = rest.filter (fresh s.limiter.window later) := by
    have hmono : t.inWindow key later =
        (s.inWindow key now).filter (fresh s.limiter.window later) := by
      rw [inWindow, inWindow, haccepted, hwindow, List.filter_filter]
      refine filter_congr fun x _ => ?_
      cases hx : fresh s.limiter.window later x with
      | false => rfl
      | true => rw [fresh_mono (by omega) hx]; rfl
    rw [hmono, hlist, filter_cons_of_neg (by simp [hstale])]
  refine ht.admits hclock hroom ?_
  have hlength : (s.inWindow key now).length ≤ _ := hs.length_inWindow hnow
  rw [hlist, length_cons] at hlength
  rw [hwindow', hmax]
  exact Nat.lt_of_le_of_lt (length_filter_le _ _) hlength

/-- One request per 10 s, of which key 1 has had its one at time 0. -/
def sampleHit : Limited Nat :=
  (runFrom step (Limited.new 1 (10 * nanosPerSec) 2 0) [(1, 0)]).get (by decide +kernel)

/-- After 2 s key 1 is told to come back after 8 s; at 3 s another key comes. -/
def sampleWait : Limited Nat :=
  (runFrom step (sampleHit.after 1 (2 * nanosPerSec) (sampleHit.limiter.check 1 (2 * nanosPerSec)))
    [(2, 3 * nanosPerSec)]).get (by decide +kernel)

theorem retry_admitted_sampleWait :
    (sampleWait.limiter.check 1 (2 * nanosPerSec + 8 * nanosPerSec)).2 = .ok () :=
  retry_admitted (s := sampleHit) (some_get _).symm (Nat.le_refl 1) (Nat.zero_le _)
    (by decide +kernel) (by decide +kernel) (by decide +kernel) (some_get _).symm
    (by decide +kernel) (by decide +kernel) (by decide +kernel)

/-- Half a second after its request, key 1 is told to come back after 9 s, when the request is still
inside the window. -/
theorem early_retry_refused :
    sampleHit.inWindow 1 (nanosPerSec / 2) = [0] ∧
      (sampleHit.limiter.check 1 (nanosPerSec / 2)).2 = .error 9 ∧
      ((sampleHit.limiter.check 1 (nanosPerSec / 2)).1.check 1
        (nanosPerSec / 2 + 9 * nanosPerSec)).2 = .error 1 := by
  decide +kernel

end Limited

end RivetLink.Server
