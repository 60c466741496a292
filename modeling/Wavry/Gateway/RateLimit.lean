import Wavry.Lib.AssocMap
import Wavry.Lib.Saturating

/-! The gateway's fixed-window rate limiter (wavry-gateway, security.rs). An
`Instant` is a count of nanoseconds, and `duration_since` saturates at zero as
Nat subtraction does. The `HashMap` behind the mutex is an `AssocMap`; nothing
in `allow` panics while it holds the lock, so the poisoned branch is never
taken and is left out.

A run is a sequence of `allow` calls at non-decreasing instants. The trace of a
run records, for each call, its answer and whether it started a new window for
its key, so that the budget and the spacing of resets can be stated over the
trace. -/

namespace Wavry.Gateway

open Saturating

/-- `RateEntry`: the count inside the key's current window and when that
window started. -/
structure RateEntry where
  count : UInt32
  windowStart : Nat
  deriving DecidableEq, Repr

structure FixedWindowRateLimiter where
  maxRequests : UInt32
  window : Nat
  maxKeys : Nat
  entries : AssocMap String RateEntry

namespace FixedWindowRateLimiter

def new (maxRequests : UInt32) (window maxKeys : Nat) : FixedWindowRateLimiter :=
  ⟨maxRequests, window, maxKeys, AssocMap.empty⟩

/-- `now.duration_since(entry.window_start) < self.window`: the closure that
`retain` keeps entries by. -/
def isLive (window now : Nat) (entry : RateEntry) : Bool :=
  decide (now - entry.windowStart < window)

/-- The second half of `allow`, run on the table the size check leaves:
`or_insert` a fresh entry, restart an expired window, count the call. The last
component says whether the call started a new window for `key`, either by
inserting it or by restarting it; `allow` does not return it. -/
def countRequest (l : FixedWindowRateLimiter) (entries : AssocMap String RateEntry)
    (key : String) (now : Nat) : FixedWindowRateLimiter × Bool × Bool :=
  let found := entries.get key
  let entry := found.getD ⟨0, now⟩
  let expired := decide (now - entry.windowStart ≥ l.window)
  let entry : RateEntry := if expired then ⟨0, now⟩ else entry
  let entry := { entry with count := saturatingAdd32 entry.count 1 }
  ({ l with entries := entries.insert key entry }, decide (entry.count ≤ l.maxRequests),
    found.isNone || expired)

/-- `FixedWindowRateLimiter::allow` at instant `now`, with the new limiter, the
answer and whether the call started a new window for `key`. -/
def allowTraced (l : FixedWindowRateLimiter) (key : String) (now : Nat) :
    FixedWindowRateLimiter × Bool × Bool :=
  if l.entries.size > l.maxKeys then
    let entries := l.entries.retain fun _ entry => isLive l.window now entry
    if entries.size > l.maxKeys then ({ l with entries }, false, false)
    else countRequest l entries key now
  else countRequest l l.entries key now

/-- `FixedWindowRateLimiter::allow`. -/
def allow (l : FixedWindowRateLimiter) (key : String) (now : Nat) : FixedWindowRateLimiter × Bool :=
  ((allowTraced l key now).1, (allowTraced l key now).2.1)

/-! ## One call -/

/-- The table `allow` counts in: the entries whose window is still running
when the size check prunes, all of them otherwise. -/
def prunedEntries (l : FixedWindowRateLimiter) (now : Nat) : AssocMap String RateEntry :=
  if l.entries.size > l.maxKeys then l.entries.retain fun _ entry => isLive l.window now entry
  else l.entries

/-- `allow` refuses when the pruned table is still too large and counts in it
otherwise; the nesting of the two size checks is gone. -/
theorem allowTraced_eq (l : FixedWindowRateLimiter) (key : String) (now : Nat) :
    allowTraced l key now =
      if (prunedEntries l now).size > l.maxKeys then
        ({ l with entries := prunedEntries l now }, false, false)
      else countRequest l (prunedEntries l now) key now := by
  unfold allowTraced prunedEntries
  dsimp only
  split_ifs <;> rfl

@[simp] theorem maxRequests_allowTraced (l : FixedWindowRateLimiter) (key : String) (now : Nat) :
    (allowTraced l key now).1.maxRequests = l.maxRequests := by
  rw [allowTraced_eq]
  split_ifs <;> rfl

@[simp] theorem window_allowTraced (l : FixedWindowRateLimiter) (key : String) (now : Nat) :
    (allowTraced l key now).1.window = l.window := by
  rw [allowTraced_eq]
  split_ifs <;> rfl

@[simp] theorem maxKeys_allowTraced (l : FixedWindowRateLimiter) (key : String) (now : Nat) :
    (allowTraced l key now).1.maxKeys = l.maxKeys := by
  rw [allowTraced_eq]
  split_ifs <;> rfl

theorem get_of_get_prunedEntries {l : FixedWindowRateLimiter} {now : Nat} {key : String}
    {entry : RateEntry} (h : (prunedEntries l now).get key = some entry) :
    l.entries.get key = some entry := by
  unfold prunedEntries at h
  split_ifs at h
  · rw [AssocMap.get_retain, Option.filter_eq_some_iff] at h
    exact h.1
  · exact h

/-- Pruning drops only entries whose window has run out. -/
theorem isLive_of_get_prunedEntries_eq_none {l : FixedWindowRateLimiter} {now : Nat}
    {key : String} {entry : RateEntry} (hGet : l.entries.get key = some entry)
    (hNone : (prunedEntries l now).get key = none) : isLive l.window now entry = false := by
  unfold prunedEntries at hNone
  split_ifs at hNone
  · rw [AssocMap.get_retain, hGet, Option.filter_some] at hNone
    simpa using hNone
  · rw [hGet] at hNone
    cases hNone

theorem size_prunedEntries_le (l : FixedWindowRateLimiter) (now : Nat) :
    (prunedEntries l now).size ≤ l.entries.size := by
  unfold prunedEntries
  split_ifs
  · exact AssocMap.size_retain_le _ _
  · exact le_rfl

theorem saturatingAdd32_zero_one : saturatingAdd32 0 1 = 1 := by decide

/-- What the counting half does: either the call starts a new window, whose
count is one, or it counts in the key's running window. -/
theorem countRequest_cases (l : FixedWindowRateLimiter) (entries : AssocMap String RateEntry)
    (key : String) (now : Nat) :
    (countRequest l entries key now =
        ({ l with entries := entries.insert key ⟨1, now⟩ }, decide (1 ≤ l.maxRequests), true) ∧
      ∀ entry, entries.get key = some entry → l.window ≤ now - entry.windowStart) ∨
    ∃ entry, entries.get key = some entry ∧ now - entry.windowStart < l.window ∧
      countRequest l entries key now =
        ({ l with entries := entries.insert key ⟨saturatingAdd32 entry.count 1, entry.windowStart⟩ },
          decide (saturatingAdd32 entry.count 1 ≤ l.maxRequests), false) := by
  unfold countRequest
  cases hGet : entries.get key with
  | none =>
      left
      refine ⟨?_, fun _ h => by cases h⟩
      simp only [Option.getD_none, Option.isNone_none, Bool.true_or, ite_self,
        saturatingAdd32_zero_one]
  | some entry =>
      by_cases hExpired : l.window ≤ now - entry.windowStart
      · left
        refine ⟨?_, fun _ h => Option.some.inj h ▸ hExpired⟩
        simp only [Option.getD_some, ge_iff_le, hExpired, decide_true, if_true, Option.isNone_some,
          Bool.false_or, saturatingAdd32_zero_one]
      · right
        refine ⟨entry, rfl, by omega, ?_⟩
        simp only [Option.getD_some, ge_iff_le, hExpired, decide_false, Bool.false_eq_true, if_false,
          Option.isNone_some, Bool.or_false]

/-! ## Runs and their traces -/

/-- One served call as the trace records it. -/
structure Served where
  key : String
  now : Nat
  allowed : Bool
  reset : Bool
  deriving DecidableEq, Repr

/-- Serve one call and record it. -/
def serveStep (acc : FixedWindowRateLimiter × List Served) (call : String × Nat) :
    FixedWindowRateLimiter × List Served :=
  let result := allowTraced acc.1 call.1 call.2
  (result.1, acc.2 ++ [⟨call.1, call.2, result.2.1, result.2.2⟩])

/-- Serve `calls` in order, each a key and the instant of the call. -/
def serve (l : FixedWindowRateLimiter) (calls : List (String × Nat)) :
    FixedWindowRateLimiter × List Served :=
  calls.foldl serveStep (l, [])

theorem serve_append_singleton (l : FixedWindowRateLimiter) (calls : List (String × Nat))
    (call : String × Nat) : serve l (calls ++ [call]) = serveStep (serve l calls) call := by
  simp only [serve, List.foldl_append, List.foldl_cons, List.foldl_nil]

/-- How a record moves the count of calls allowed for `key` in its window. -/
def Served.countAfter (r : Served) (key : String) (n : Nat) : Nat :=
  if r.key = key then (if r.reset then 0 else n) + (if r.allowed then 1 else 0) else n

/-- Calls for `key` that were allowed since its window last started. -/
def allowedSince (trace : List Served) (key : String) : Nat :=
  trace.foldl (fun n r => r.countAfter key n) 0

/-- The instants at which `key`'s window started. -/
def resetTimes (trace : List Served) (key : String) : List Nat :=
  (trace.filter fun r => r.key = key && r.reset).map Served.now

@[simp] theorem allowedSince_nil (key : String) : allowedSince [] key = 0 := rfl

@[simp] theorem resetTimes_nil (key : String) : resetTimes [] key = [] := rfl

@[simp] theorem allowedSince_append_singleton (trace : List Served) (r : Served) (key : String) :
    allowedSince (trace ++ [r]) key = r.countAfter key (allowedSince trace key) := by
  simp only [allowedSince, List.foldl_append, List.foldl_cons, List.foldl_nil]

theorem resetTimes_append_singleton (trace : List Served) (r : Served) (key : String) :
    resetTimes (trace ++ [r]) key =
      resetTimes trace key ++ if r.key = key ∧ r.reset = true then [r.now] else [] := by
  unfold resetTimes
  by_cases h : r.key = key ∧ r.reset = true
  · simp [List.filter_append, h]
  · have : (r.key = key && r.reset) = false := by simpa using h
    simp [List.filter_append, h, this]

theorem resetTimes_append_of_ne {trace : List Served} {r : Served} {key : String}
    (h : r.key ≠ key ∨ r.reset = false) : resetTimes (trace ++ [r]) key = resetTimes trace key := by
  rw [resetTimes_append_singleton, if_neg (by rintro ⟨hKey, hReset⟩; rcases h with h | h <;> simp_all)]
  exact List.append_nil _

theorem countAfter_of_ne {r : Served} {key : String} (h : r.key ≠ key) (n : Nat) :
    r.countAfter key n = n := by
  simp [Served.countAfter, h]

/-! ## Windows start only after the last one ran out

Every entry's window started at the key's last reset; a key that is absent
last reset at least `window` before now. Pruning keeps this, since it drops only
expired entries, and so a new window for a key always starts at least `window`
after the one before it. -/

structure Windows (l : FixedWindowRateLimiter) (trace : List Served) (tNow : Nat) : Prop where
  start_le : ∀ key entry, l.entries.get key = some entry → entry.windowStart ≤ tNow
  lastReset : ∀ key entry, l.entries.get key = some entry →
    (resetTimes trace key).getLast? = some entry.windowStart
  expired : ∀ key t, l.entries.get key = none → (resetTimes trace key).getLast? = some t →
    t + l.window ≤ tNow
  chain : ∀ key, (resetTimes trace key).IsChain fun a b => a + l.window ≤ b

theorem Windows.mono {l : FixedWindowRateLimiter} {trace : List Served} {t t' : Nat}
    (hW : Windows l trace t) (hT : t ≤ t') : Windows l trace t' where
  start_le key entry h := (hW.start_le key entry h).trans hT
  lastReset := hW.lastReset
  expired key t h hLast := (hW.expired key t h hLast).trans hT
  chain := hW.chain

theorem windows_new (maxRequests : UInt32) (window maxKeys t : Nat) :
    Windows (new maxRequests window maxKeys) [] t where
  start_le _ _ h := by cases h
  lastReset _ _ h := by cases h
  expired _ _ _ h := by cases h
  chain _ := List.IsChain.nil

/-- A key missing from the pruned table last started its window at least
`window` before now. -/
theorem Windows.add_window_le {l : FixedWindowRateLimiter} {trace : List Served} {tNow now : Nat}
    (hW : Windows l trace tNow) (hT : tNow ≤ now) {key : String}
    (hNone : (prunedEntries l now).get key = none) {t : Nat}
    (hLast : (resetTimes trace key).getLast? = some t) : t + l.window ≤ now := by
  cases hGet : l.entries.get key with
  | none => exact (hW.expired key t hGet hLast).trans hT
  | some entry =>
      have hLive := isLive_of_get_prunedEntries_eq_none hGet hNone
      have hStart := hW.start_le key entry hGet
      have hEq : t = entry.windowStart := by
        rw [hW.lastReset key entry hGet] at hLast
        exact (Option.some.inj hLast).symm
      simp only [isLive, decide_eq_false_iff_not, not_lt] at hLive
      omega

theorem Windows.prunedEntries {l : FixedWindowRateLimiter} {trace : List Served} {tNow now : Nat}
    (hW : Windows l trace tNow) (hT : tNow ≤ now) :
    Windows { l with entries := prunedEntries l now } trace now where
  start_le key entry h := (hW.start_le key entry (get_of_get_prunedEntries h)).trans hT
  lastReset key entry h := hW.lastReset key entry (get_of_get_prunedEntries h)
  expired _ _ h hLast := hW.add_window_le hT h hLast
  chain := hW.chain

theorem Windows.append_not_reset {l : FixedWindowRateLimiter} {trace : List Served} {t : Nat}
    (hW : Windows l trace t) {r : Served} (hReset : r.reset = false) :
    Windows l (trace ++ [r]) t := by
  have hSame : ∀ key, resetTimes (trace ++ [r]) key = resetTimes trace key :=
    fun _ => resetTimes_append_of_ne (Or.inr hReset)
  exact ⟨hW.start_le, by simpa only [hSame] using hW.lastReset,
    by simpa only [hSame] using hW.expired, by simpa only [hSame] using hW.chain⟩

/-- Storing an entry for the key of the newest record: every other key keeps
its entry and its resets, so only the stored entry has to fit the key's resets. -/
theorem Windows.insert {l : FixedWindowRateLimiter} {trace : List Served} {now : Nat}
    (hW : Windows l trace now) {r : Served} {e : RateEntry} (hStart : e.windowStart ≤ now)
    (hLast : (resetTimes (trace ++ [r]) r.key).getLast? = some e.windowStart)
    (hChain : (resetTimes (trace ++ [r]) r.key).IsChain fun a b => a + l.window ≤ b) :
    Windows { l with entries := l.entries.insert r.key e } (trace ++ [r]) now := by
  have hOther : ∀ k, k ≠ r.key → resetTimes (trace ++ [r]) k = resetTimes trace k :=
    fun _ hk => resetTimes_append_of_ne (Or.inl (Ne.symm hk))
  constructor
  · intro k stored h
    by_cases hk : k = r.key
    · simp only [AssocMap.get_insert, hk, if_true, Option.some.injEq] at h
      rw [← h]
      exact hStart
    · simp only [AssocMap.get_insert, hk, if_false] at h
      exact hW.start_le k stored h
  · intro k stored h
    by_cases hk : k = r.key
    · subst hk
      simp only [AssocMap.get_insert, if_true, Option.some.injEq] at h
      rw [← h]
      exact hLast
    · simp only [AssocMap.get_insert, hk, if_false] at h
      rw [hOther k hk]
      exact hW.lastReset k stored h
  · intro k t h hLast
    by_cases hk : k = r.key
    · simp [AssocMap.get_insert, hk] at h
    · simp only [AssocMap.get_insert, hk, if_false] at h
      rw [hOther k hk] at hLast
      exact hW.expired k t h hLast
  · intro k
    by_cases hk : k = r.key
    · subst hk
      exact hChain
    · rw [hOther k hk]
      exact hW.chain k

/-- The counting half keeps `Windows` on a table that has it at `now`. -/
theorem Windows.countRequest {l : FixedWindowRateLimiter} {trace : List Served} {now : Nat}
    (hW : Windows l trace now) (key : String) :
    Windows (countRequest l l.entries key now).1
      (trace ++ [⟨key, now, (countRequest l l.entries key now).2.1,
        (countRequest l l.entries key now).2.2⟩]) now := by
  rcases countRequest_cases l l.entries key now with ⟨hEq, hExpired⟩ | ⟨entry, hGet, hLive, hEq⟩
  · rw [hEq]
    have hLastLe : ∀ t ∈ (resetTimes trace key).getLast?, t + l.window ≤ now := by
      intro t hLast
      cases hGet : l.entries.get key with
      | none => exact hW.expired key t hGet hLast
      | some entry =>
          rw [hW.lastReset key entry hGet, Option.mem_some_iff] at hLast
          have := hExpired entry hGet
          have := hW.start_le key entry hGet
          omega
    have hResets : resetTimes (trace ++ [⟨key, now, decide (1 ≤ l.maxRequests), true⟩]) key =
        resetTimes trace key ++ [now] := by
      simp [resetTimes_append_singleton]
    dsimp only
    apply hW.insert (r := ⟨key, now, decide (1 ≤ l.maxRequests), true⟩) le_rfl
    · simp [hResets]
    · rw [hResets]
      apply (hW.chain key).append (List.isChain_singleton now)
      intro t hT _ hNow
      rw [List.head?_cons, Option.mem_some_iff] at hNow
      subst hNow
      exact hLastLe t hT
  · rw [hEq]
    have hResets : resetTimes (trace ++
        [⟨key, now, decide (saturatingAdd32 entry.count 1 ≤ l.maxRequests), false⟩]) key =
        resetTimes trace key := resetTimes_append_of_ne (Or.inr rfl)
    dsimp only
    apply hW.insert (r := ⟨key, now, decide (saturatingAdd32 entry.count 1 ≤ l.maxRequests), false⟩)
      (e := ⟨saturatingAdd32 entry.count 1, entry.windowStart⟩) (hW.start_le key entry hGet)
    · rw [hResets]
      exact hW.lastReset key entry hGet
    · rw [hResets]
      exact hW.chain key

/-! ## The budget

While `max_requests` is below `u32::MAX`, a key's stored count is at least the
calls allowed in its window, and those are at most `max_requests`. -/

structure Budget (l : FixedWindowRateLimiter) (trace : List Served) : Prop where
  le_max : ∀ key, allowedSince trace key ≤ l.maxRequests.toNat
  le_count : ∀ key entry, l.entries.get key = some entry → allowedSince trace key ≤ entry.count.toNat

theorem budget_new (maxRequests : UInt32) (window maxKeys : Nat) :
    Budget (new maxRequests window maxKeys) [] where
  le_max _ := Nat.zero_le _
  le_count _ _ h := by cases h

theorem Budget.prunedEntries {l : FixedWindowRateLimiter} {trace : List Served}
    (hB : Budget l trace) (now : Nat) : Budget { l with entries := prunedEntries l now } trace where
  le_max := hB.le_max
  le_count key entry h := hB.le_count key entry (get_of_get_prunedEntries h)

/-- A refusal for a full table counts for nobody. -/
theorem Budget.append_refused {l : FixedWindowRateLimiter} {trace : List Served}
    (hB : Budget l trace) (key : String) (now : Nat) : Budget l (trace ++ [⟨key, now, false, false⟩]) := by
  have hSame : ∀ k, allowedSince (trace ++ [⟨key, now, false, false⟩]) k = allowedSince trace k := by
    intro k
    simp [Served.countAfter]
  exact ⟨by simpa only [hSame] using hB.le_max, by simpa only [hSame] using hB.le_count⟩

/-- Storing an entry for the key of the newest record: every other key keeps
its entry and its count. -/
theorem Budget.insert {l : FixedWindowRateLimiter} {trace : List Served} (hB : Budget l trace)
    {r : Served} {e : RateEntry} (hMax : allowedSince (trace ++ [r]) r.key ≤ l.maxRequests.toNat)
    (hCount : allowedSince (trace ++ [r]) r.key ≤ e.count.toNat) :
    Budget { l with entries := l.entries.insert r.key e } (trace ++ [r]) := by
  have hOther : ∀ k, k ≠ r.key → allowedSince (trace ++ [r]) k = allowedSince trace k := by
    intro k hk
    rw [allowedSince_append_singleton, countAfter_of_ne (Ne.symm hk)]
  constructor
  · intro k
    by_cases hk : k = r.key
    · subst hk
      exact hMax
    · rw [hOther k hk]
      exact hB.le_max k
  · intro k stored h
    by_cases hk : k = r.key
    · subst hk
      simp only [AssocMap.get_insert, if_true, Option.some.injEq] at h
      rw [← h]
      exact hCount
    · simp only [AssocMap.get_insert, hk, if_false] at h
      rw [hOther k hk]
      exact hB.le_count k stored h

theorem Budget.countRequest {l : FixedWindowRateLimiter} {trace : List Served}
    (hMax : l.maxRequests.toNat < 2 ^ 32 - 1) (hB : Budget l trace) (key : String) (now : Nat) :
    Budget (countRequest l l.entries key now).1
      (trace ++ [⟨key, now, (countRequest l l.entries key now).2.1,
        (countRequest l l.entries key now).2.2⟩]) := by
  rcases countRequest_cases l l.entries key now with ⟨hEq, -⟩ | ⟨entry, hGet, -, hEq⟩
  · rw [hEq]
    dsimp only
    have hNew : allowedSince (trace ++ [⟨key, now, decide (1 ≤ l.maxRequests), true⟩]) key =
        if 1 ≤ l.maxRequests then 1 else 0 := by
      simp [Served.countAfter]
    apply hB.insert (r := ⟨key, now, decide (1 ≤ l.maxRequests), true⟩) (e := ⟨1, now⟩)
    · rw [hNew]
      split_ifs with hOne
      · exact UInt32.le_iff_toNat_le.mp hOne
      · exact Nat.zero_le _
    · rw [hNew]
      split_ifs <;> simp
  · rw [hEq]
    dsimp only
    have hNew : allowedSince (trace ++
        [⟨key, now, decide (saturatingAdd32 entry.count 1 ≤ l.maxRequests), false⟩]) key =
        allowedSince trace key + if saturatingAdd32 entry.count 1 ≤ l.maxRequests then 1 else 0 := by
      simp [Served.countAfter]
    have hOld := hB.le_count key entry hGet
    have hBound := hB.le_max key
    have hSum := toNat_saturatingAdd32 entry.count 1
    have hLt := UInt32.toNat_lt entry.count
    rw [UInt32.toNat_one] at hSum
    have hFits : allowedSince trace key + (if saturatingAdd32 entry.count 1 ≤ l.maxRequests then 1 else 0) ≤
        min l.maxRequests.toNat (saturatingAdd32 entry.count 1).toNat := by
      split_ifs with hAllowed
      · rw [UInt32.le_iff_toNat_le] at hAllowed
        omega
      · omega
    apply hB.insert (r := ⟨key, now, decide (saturatingAdd32 entry.count 1 ≤ l.maxRequests), false⟩)
      (e := ⟨saturatingAdd32 entry.count 1, entry.windowStart⟩)
    · rw [hNew]
      exact hFits.trans (min_le_left _ _)
    · rw [hNew]
      exact hFits.trans (min_le_right _ _)

/-! ## Whole runs -/

/-- What holds after every run from `new`, with `tNow` the instant of its last
call or any later one. -/
structure Inv (l : FixedWindowRateLimiter) (trace : List Served) (tNow : Nat) : Prop where
  windows : Windows l trace tNow
  budget : l.maxRequests.toNat < 2 ^ 32 - 1 → Budget l trace
  bounded : l.entries.size ≤ l.maxKeys + 1

theorem Inv.mono {l : FixedWindowRateLimiter} {trace : List Served} {t t' : Nat}
    (hInv : Inv l trace t) (hT : t ≤ t') : Inv l trace t' :=
  ⟨hInv.windows.mono hT, hInv.budget, hInv.bounded⟩

theorem inv_new (maxRequests : UInt32) (window maxKeys t : Nat) :
    Inv (new maxRequests window maxKeys) [] t :=
  ⟨windows_new maxRequests window maxKeys t, fun _ => budget_new maxRequests window maxKeys,
    Nat.zero_le _⟩

theorem size_countRequest_le (l : FixedWindowRateLimiter) (entries : AssocMap String RateEntry)
    (key : String) (now : Nat) : (countRequest l entries key now).1.entries.size ≤ entries.size + 1 :=
  AssocMap.size_insert_le _ _ _

/-- One call, at an instant no earlier than the last, keeps the invariant. -/
theorem Inv.serveStep {acc : FixedWindowRateLimiter × List Served} {tNow : Nat}
    (hInv : Inv acc.1 acc.2 tNow) {call : String × Nat} (hT : tNow ≤ call.2) :
    Inv (serveStep acc call).1 (serveStep acc call).2 call.2 := by
  obtain ⟨l, trace⟩ := acc
  obtain ⟨key, now⟩ := call
  have hPruned := hInv.windows.prunedEntries hT
  unfold FixedWindowRateLimiter.serveStep
  dsimp only at hInv hT hPruned ⊢
  rw [allowTraced_eq]
  split_ifs with hFull
  · exact ⟨hPruned.append_not_reset rfl,
      fun hMax => ((hInv.budget hMax).prunedEntries now).append_refused key now,
      (size_prunedEntries_le l now).trans hInv.bounded⟩
  · exact ⟨hPruned.countRequest key,
      fun hMax => ((hInv.budget hMax).prunedEntries now).countRequest
        (l := { l with entries := prunedEntries l now }) hMax key now,
      (size_countRequest_le l (prunedEntries l now) key now).trans
        (by show (prunedEntries l now).size + 1 ≤ l.maxKeys + 1; omega)⟩

theorem serve_params (l : FixedWindowRateLimiter) (calls : List (String × Nat)) :
    (serve l calls).1.maxRequests = l.maxRequests ∧ (serve l calls).1.window = l.window ∧
      (serve l calls).1.maxKeys = l.maxKeys := by
  induction calls using List.reverseRecOn with
  | nil => exact ⟨rfl, rfl, rfl⟩
  | append_singleton calls call ih =>
      rw [serve_append_singleton]
      simpa only [serveStep, maxRequests_allowTraced, window_allowTraced, maxKeys_allowTraced]
        using ih

/-- Every run from `new` at non-decreasing instants keeps the invariant, at the
instant of its last call and at any later one. -/
theorem inv_serve (maxRequests : UInt32) (window maxKeys : Nat) (calls : List (String × Nat))
    (hSorted : (calls.map Prod.snd).Pairwise (· ≤ ·)) (t : Nat) (hT : ∀ call ∈ calls, call.2 ≤ t) :
    Inv (serve (new maxRequests window maxKeys) calls).1
      (serve (new maxRequests window maxKeys) calls).2 t := by
  induction calls using List.reverseRecOn generalizing t with
  | nil => exact inv_new maxRequests window maxKeys t
  | append_singleton calls call ih =>
      rw [List.map_append, List.pairwise_append] at hSorted
      have hBefore : ∀ c ∈ calls, c.2 ≤ call.2 :=
        fun c hc => hSorted.2.2 c.2 (List.mem_map_of_mem hc) call.2 (by simp)
      rw [serve_append_singleton]
      exact ((ih hSorted.1 call.2 hBefore).serveStep le_rfl).mono (hT call (by simp))

/-! ## `max_requests = u32::MAX`

The count saturates at `u32::MAX`, and `u32::MAX <= max_requests` still holds,
so a key that keeps calling inside one window is never refused. -/

/-- A limiter at `max_requests = u32::MAX` whose only entry is `key`'s, with
its window started at `now`. -/
structure Saturated (l : FixedWindowRateLimiter) (key : String) (now : Nat) : Prop where
  maxRequests_eq : l.maxRequests = 0xFFFFFFFF
  window_pos : 0 < l.window
  maxKeys_pos : 0 < l.maxKeys
  size_le : l.entries.size ≤ 1
  get_eq : ∃ count, l.entries.get key = some ⟨count, now⟩

theorem le_uint32Max (a : UInt32) : a ≤ 0xFFFFFFFF := by
  rw [UInt32.le_iff_toNat_le]
  have := UInt32.toNat_lt a
  simp only [UInt32.reduceToNat]
  omega

theorem prunedEntries_of_size_le {l : FixedWindowRateLimiter} {now : Nat}
    (h : l.entries.size ≤ l.maxKeys) : prunedEntries l now = l.entries := by
  unfold prunedEntries
  rw [if_neg (by omega)]

/-- A call for `key` at `now` is allowed, counted in the running window, and
leaves the limiter saturated. -/
theorem Saturated.serveStep {acc : FixedWindowRateLimiter × List Served} {key : String} {now : Nat}
    (hS : Saturated acc.1 key now) :
    Saturated (serveStep acc (key, now)).1 key now ∧
      allowedSince (serveStep acc (key, now)).2 key = allowedSince acc.2 key + 1 := by
  obtain ⟨l, trace⟩ := acc
  obtain ⟨count, hGet⟩ := hS.get_eq
  have hSize := hS.size_le
  have hKeys := hS.maxKeys_pos
  dsimp only at hS hGet hSize hKeys
  have hPruned : prunedEntries l now = l.entries := prunedEntries_of_size_le (by omega)
  have hCount : allowTraced l key now = countRequest l l.entries key now := by
    rw [allowTraced_eq, hPruned, if_neg (by omega)]
  rcases countRequest_cases l l.entries key now with ⟨-, hExpired⟩ | ⟨entry, hEntry, -, hEq⟩
  · have := hExpired _ hGet
    have := hS.window_pos
    simp only [Nat.sub_self] at *
    omega
  · rw [hGet, Option.some.injEq] at hEntry
    subst hEntry
    have hErase : (l.entries.erase key).size = 0 := by
      have := AssocMap.size_erase_lt l.entries ((AssocMap.mem_keys_iff l.entries key).mpr (by simp [hGet]))
      omega
    have hAllowed : saturatingAdd32 count 1 ≤ l.maxRequests := hS.maxRequests_eq ▸ le_uint32Max _
    simp only [FixedWindowRateLimiter.serveStep, hCount, hEq, hAllowed, decide_true]
    refine ⟨⟨hS.maxRequests_eq, hS.window_pos, hKeys, ?_, saturatingAdd32 count 1, by simp⟩, ?_⟩
    · rw [AssocMap.size_insert, hErase]
    · simp [Served.countAfter]

/-- The first call for `key` on a new saturated-configuration limiter. -/
theorem saturated_serveStep_new {window maxKeys : Nat} (hWindow : 0 < window) (hKeys : 0 < maxKeys)
    (key : String) (now : Nat) :
    Saturated (serveStep (new 0xFFFFFFFF window maxKeys, []) (key, now)).1 key now ∧
      allowedSince (serveStep (new 0xFFFFFFFF window maxKeys, []) (key, now)).2 key = 1 := by
  have hCount : allowTraced (new 0xFFFFFFFF window maxKeys) key now =
      countRequest (new 0xFFFFFFFF window maxKeys) AssocMap.empty key now := by
    rw [allowTraced_eq, prunedEntries_of_size_le (Nat.zero_le _), if_neg (by simp [new, AssocMap.size, AssocMap.empty])]
    rfl
  rcases countRequest_cases (new 0xFFFFFFFF window maxKeys) AssocMap.empty key now with
    ⟨hEq, -⟩ | ⟨_, hEntry, -⟩
  · have hOne : (1 : UInt32) ≤ (new 0xFFFFFFFF window maxKeys).maxRequests := le_uint32Max 1
    simp only [FixedWindowRateLimiter.serveStep, hCount, hEq, hOne, decide_true]
    refine ⟨⟨rfl, hWindow, hKeys, ?_, 1, by simp⟩, by simp [allowedSince, Served.countAfter]⟩
    rw [AssocMap.size_insert]
    rfl
  · cases hEntry

theorem allowedSince_foldl_replicate {acc : FixedWindowRateLimiter × List Served} {key : String}
    {now : Nat} (hS : Saturated acc.1 key now) (n : Nat) :
    allowedSince ((List.replicate n (key, now)).foldl serveStep acc).2 key = allowedSince acc.2 key + n := by
  induction n generalizing acc with
  | zero => rfl
  | succ n ih =>
      rw [List.replicate_succ, List.foldl_cons, ih hS.serveStep.1, hS.serveStep.2]
      omega

/-- At `max_requests = u32::MAX` every one of `n` calls for one key at one
instant is allowed in the same window, whatever `n` is. -/
theorem allowedSince_serve_replicate {window maxKeys : Nat} (hWindow : 0 < window)
    (hKeys : 0 < maxKeys) (key : String) (now n : Nat) :
    allowedSince (serve (new 0xFFFFFFFF window maxKeys) (List.replicate n (key, now))).2 key = n := by
  cases n with
  | zero => rfl
  | succ n =>
      obtain ⟨hS, hOne⟩ := saturated_serveStep_new hWindow hKeys key now
      rw [serve, List.replicate_succ, List.foldl_cons, allowedSince_foldl_replicate hS, hOne]
      omega

end FixedWindowRateLimiter

/-! ## The gateway's limiters -/

/-- What a limiter reads from the environment, each variable as parsed: `none`
when it is unset or does not parse, where `env_u32` and `env_usize` fall back
to their default. -/
structure LimiterEnv where
  rateLimit : Option UInt32
  windowSecs : Option UInt32
  maxKeys : Option Nat

def envU32 (value : Option UInt32) (default : UInt32) : UInt32 := value.getD default

def envUsize (value : Option Nat) (default : Nat) : Nat := value.getD default

/-- `Duration::from_secs`, in the nanoseconds an `Instant` counts. -/
def fromSecs (secs : Nat) : Nat := secs * 1000000000

/-- The limiter an `allow_*_request` builds on first use, from its variables
and its defaults: the window is `max(secs, 1)` seconds. -/
def limiterOf (env : LimiterEnv) (rateLimit windowSecs : UInt32) (maxKeys : Nat) :
    FixedWindowRateLimiter :=
  .new (envU32 env.rateLimit rateLimit) (fromSecs (max (envU32 env.windowSecs windowSecs) 1).toNat)
    (envUsize env.maxKeys maxKeys)

/-- `AUTH_LIMITER`, built from the `WAVRY_AUTH_RATE_*` variables. -/
def authLimiter (env : LimiterEnv) : FixedWindowRateLimiter := limiterOf env 20 60 10000

/-- `POST_AUTH_LIMITER`, built from the `WAVRY_POST_AUTH_RATE_*` variables. -/
def postAuthLimiter (env : LimiterEnv) : FixedWindowRateLimiter := limiterOf env 60 60 50000

/-- `WEBRTC_LIMITER`, built from the `WAVRY_WEBRTC_RATE_*` variables. -/
def webrtcLimiter (env : LimiterEnv) : FixedWindowRateLimiter := limiterOf env 120 60 50000

/-- `WS_BIND_LIMITER`, built from the `WAVRY_WS_BIND_RATE_*` variables. -/
def wsBindLimiter (env : LimiterEnv) : FixedWindowRateLimiter := limiterOf env 10 60 50000

/-- `GLOBAL_API_LIMITER`, built from the `WAVRY_GLOBAL_RATE_*` variables. -/
def globalApiLimiter (env : LimiterEnv) : FixedWindowRateLimiter := limiterOf env 600 60 200000

/-- The `max(1)` guard: every limiter the gateway builds has a window of at
least a second, whatever its variable says. -/
theorem fromSecs_one_le_window_limiterOf (env : LimiterEnv) (rateLimit windowSecs : UInt32)
    (maxKeys : Nat) : fromSecs 1 ≤ (limiterOf env rateLimit windowSecs maxKeys).window := by
  have hSecs : 1 ≤ (max (envU32 env.windowSecs windowSecs) 1).toNat := by
    simp
  simp only [limiterOf, FixedWindowRateLimiter.new, fromSecs]
  omega

theorem window_limiterOf_pos (env : LimiterEnv) (rateLimit windowSecs : UInt32) (maxKeys : Nat) :
    0 < (limiterOf env rateLimit windowSecs maxKeys).window :=
  lt_of_lt_of_le (by decide) (fromSecs_one_le_window_limiterOf env rateLimit windowSecs maxKeys)

namespace FixedWindowRateLimiter

/-- The limiter over every run from `new` at non-decreasing instants: resets
of a key are at least `window` apart, the table holds at most `max_keys + 1`
entries, and below `u32::MAX` no key gets more than `max_requests` allowed
calls in one window. At `max_requests = u32::MAX` one key calling `n` times in
one window gets all `n` allowed. -/
theorem serve_budget (maxRequests : UInt32) (window maxKeys : Nat) :
    (∀ calls : List (String × Nat), (calls.map Prod.snd).Pairwise (· ≤ ·) →
      (∀ key, (resetTimes (serve (new maxRequests window maxKeys) calls).2 key).IsChain
        fun a b => a + window ≤ b) ∧
      (serve (new maxRequests window maxKeys) calls).1.entries.size ≤ maxKeys + 1 ∧
      (maxRequests.toNat < 2 ^ 32 - 1 → ∀ key,
        allowedSince (serve (new maxRequests window maxKeys) calls).2 key ≤ maxRequests.toNat)) ∧
    (maxRequests = 0xFFFFFFFF → 0 < window → 0 < maxKeys → ∀ key now n,
      allowedSince (serve (new maxRequests window maxKeys) (List.replicate n (key, now))).2 key = n) := by
  constructor
  · intro calls hSorted
    have hInv := inv_serve maxRequests window maxKeys calls hSorted (calls.map Prod.snd).sum
      (fun _ hCall => List.le_sum_of_mem (List.mem_map_of_mem hCall))
    have hParams := serve_params (new maxRequests window maxKeys) calls
    have hMaxEq : (serve (new maxRequests window maxKeys) calls).1.maxRequests = maxRequests :=
      hParams.1
    have hWindowEq : (serve (new maxRequests window maxKeys) calls).1.window = window := hParams.2.1
    have hKeysEq : (serve (new maxRequests window maxKeys) calls).1.maxKeys = maxKeys := hParams.2.2
    refine ⟨fun key => ?_, ?_, fun hMax key => ?_⟩
    · simpa only [hWindowEq] using hInv.windows.chain key
    · simpa only [hKeysEq] using hInv.bounded
    · have hB := hInv.budget (by rw [hMaxEq]; exact hMax)
      simpa only [hMaxEq] using hB.le_max key
  · intro hMax hWindow hKeys key now n
    subst hMax
    exact allowedSince_serve_replicate hWindow hKeys key now n

/-- `WAVRY_AUTH_RATE_LIMIT=4294967295`: `2^32` login attempts from one key
inside one minute are all allowed, one more than `max_requests`; at the default
limit of 20 two calls of one key a minute apart each start a window. -/
theorem serve_budget_saturated :
    authLimiter ⟨some 0xFFFFFFFF, none, none⟩ = new 0xFFFFFFFF (fromSecs 60) 10000 ∧
      allowedSince (serve (new 0xFFFFFFFF (fromSecs 60) 10000)
        (List.replicate (2 ^ 32) ("login", 0))).2 "login" = 2 ^ 32 ∧
      (resetTimes (serve (new 20 (fromSecs 60) 10000)
        [("login", 0), ("login", fromSecs 60)]).2 "login").IsChain (fun a b => a + fromSecs 60 ≤ b) ∧
      allowedSince (serve (new 20 (fromSecs 60) 10000)
        [("login", 0), ("login", fromSecs 60)]).2 "login" ≤ 20 :=
  ⟨rfl,
    (serve_budget 0xFFFFFFFF (fromSecs 60) 10000).2 rfl (by decide) (by decide) "login" 0 (2 ^ 32),
    ((serve_budget 20 (fromSecs 60) 10000).1 _ (by decide)).1 "login",
    ((serve_budget 20 (fromSecs 60) 10000).1 _ (by decide)).2.2 (by decide) "login"⟩

end FixedWindowRateLimiter

end Wavry.Gateway
