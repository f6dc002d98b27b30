import BssCli.Chat.Turns
import BssCli.Clock.Instant

/-!
# When a customer can try again

The hourly window of one key and `decide`, with the moment that a refusal names. The window keeps what lies on its edge. An
instant that chrono cannot hold panics, and the lock that this poisons is taken again.
-/

open Calendar BssCli.Clock

namespace BssCli.Chat.Retry

/-! ## The window -/

/-- One key's bucket, once there is one. -/
abbrev Bucket := Option (List ℤ)

def prune (window : ℤ) (bucket : List ℤ) (now : ℤ) : Option (List ℤ) :=
  (minus now window).map fun cutoff => bucket.dropWhile fun t => t < cutoff

/-- The bucket that is left, and the count, or `none` after a panic. -/
def record (window : ℤ) (b : Bucket) (at_ : ℤ) : Bucket × Option ℕ :=
  let bucket := b.getD [] ++ [at_]
  match prune window bucket at_ with
  | some kept => (some kept, some kept.length)
  | none => (some bucket, none)

def count (window : ℤ) (b : Bucket) (now : ℤ) : Bucket × Option ℕ :=
  match b with
  | none => (none, some 0)
  | some bucket =>
    if bucket = [] then (some bucket, some 0)
    else
      match prune window bucket now with
      | some kept => (some kept, some kept.length)
      | none => (some bucket, none)

inductive Call
  | record (at_ : ℤ)
  | count (now : ℤ)

namespace Call

def time : Call → ℤ
  | record t | count t => t

def recorded : Call → Option ℤ
  | record t => some t
  | count _ => none

end Call

def call (window : ℤ) (b : Bucket) : Call → Bucket
  | .record t => (record window b t).1
  | .count t => (count window b t).1

def run (window : ℤ) (calls : List Call) : Bucket := calls.foldl (call window) none

def entries (calls : List Call) : List ℤ := calls.filterMap Call.recorded

/-- No call is earlier than the one before it, and none is later than `now`. -/
def InOrder (calls : List Call) (now : ℤ) : Prop := (calls.map Call.time ++ [now]).Pairwise (· ≤ ·)

/-! ## What the window keeps -/

theorem dropWhile_sorted {l : List ℤ} (h : l.Pairwise (· ≤ ·)) (c : ℤ) :
    l.dropWhile (fun t => t < c) = l.filter (fun t => c ≤ t) := by
  induction l with
  | nil => rfl
  | cons x l ih =>
    obtain ⟨hx, hl⟩ := List.pairwise_cons.mp h
    by_cases hxc : x < c
    · rw [List.dropWhile_cons_of_pos (by simpa using hxc), List.filter_cons_of_neg (by simpa using hxc), ih hl]
    · rw [List.dropWhile_cons_of_neg (by simpa using hxc), eq_comm, List.filter_eq_self]
      intro t ht
      rw [decide_eq_true_eq]
      rcases List.mem_cons.mp ht with rfl | ht
      · exact not_lt.mp hxc
      · exact (not_lt.mp hxc).trans (hx t ht)

/-- The bucket is in order, and from `edge` on nothing is missing. -/
structure Holds (bucket all : List ℤ) (edge : ℤ) : Prop where
  sorted : bucket.Pairwise (· ≤ ·)
  sublist : bucket.Sublist all
  whole : ∀ c, edge ≤ c → bucket.filter (fun t => c ≤ t) = all.filter (fun t => c ≤ t)

theorem Holds.later {bucket all : List ℤ} {edge edge' : ℤ} (h : Holds bucket all edge) (hle : edge ≤ edge') :
    Holds bucket all edge' := ⟨h.sorted, h.sublist, fun c hc => h.whole c (hle.trans hc)⟩

theorem Holds.push {bucket all : List ℤ} {edge t : ℤ} (h : Holds bucket all edge) (hlast : ∀ x ∈ all, x ≤ t) :
    Holds (bucket ++ [t]) (all ++ [t]) edge := by
  refine ⟨List.pairwise_append.mpr ⟨h.sorted, List.pairwise_singleton _ _, ?_⟩, h.sublist.append_right _, fun c hc => ?_⟩
  · intro x hx y hy
    obtain rfl := List.mem_singleton.mp hy
    exact hlast x (h.sublist.subset hx)
  · rw [List.filter_append, List.filter_append, h.whole c hc]

theorem Holds.prune {window : ℤ} {bucket all kept : List ℤ} {now : ℤ} (h : Holds bucket all (now - window))
    (hp : prune window bucket now = some kept) : Holds kept all (now - window) ∧ kept = all.filter fun t => now - window ≤ t := by
  obtain ⟨cutoff, hcut, rfl⟩ := Option.map_eq_some_iff.mp hp
  obtain rfl : now - window = cutoff := by
    unfold minus at hcut
    split at hcut
    · exact Option.some.inj hcut
    · cases hcut
  have hfilter := dropWhile_sorted h.sorted (now - window)
  rw [hfilter, h.whole _ le_rfl]
  refine ⟨⟨?_, List.filter_sublist, fun c hc => ?_⟩, rfl⟩
  · rw [← h.whole _ le_rfl]
    exact h.sorted.filter _
  · rw [List.filter_filter]
    refine List.filter_congr fun t _ => ?_
    rw [← Bool.decide_and]
    exact decide_eq_decide.mpr ⟨fun ht => ht.1, fun ht => ⟨ht, hc.trans ht⟩⟩

theorem record_holds {window : ℤ} {b : Bucket} {all : List ℤ} {t : ℤ} (h : Holds (b.getD []) all (t - window))
    (hlast : ∀ x ∈ all, x ≤ t) : Holds ((record window b t).1.getD []) (all ++ [t]) (t - window) := by
  have hpush := h.push hlast
  unfold record
  dsimp only
  split
  · rename_i kept hkept
    exact (hpush.prune hkept).1
  · exact hpush

theorem count_holds {window : ℤ} {b : Bucket} {all : List ℤ} {now : ℤ} (h : Holds (b.getD []) all (now - window)) :
    Holds ((count window b now).1.getD []) all (now - window) := by
  unfold count
  split
  · exact h
  · split
    · exact h
    · split
      · rename_i kept hkept
        exact (h.prune hkept).1
      · exact h

/-- The number of the last entries, wherever the edge can be told. -/
theorem count_eq {window : ℤ} {b : Bucket} {all : List ℤ} {now : ℤ} (h : Holds (b.getD []) all (now - window)) :
    (count window b now).2 =
      if b.getD [] = [] ∨ Fits (now - window) then some (all.countP fun t => now - window ≤ t) else none := by
  have hempty : b.getD [] = [] → all.countP (fun t => now - window ≤ t) = 0 := by
    intro hb
    rw [List.countP_eq_length_filter, ← h.whole _ le_rfl, hb]
    rfl
  unfold count
  split
  · rw [if_pos (.inl rfl), hempty rfl]
  · rename_i bucket
    split
    · rename_i hb
      rw [if_pos (.inl hb), hempty hb]
    · rename_i hb
      split
      · rename_i kept hkept
        have hfits : Fits (now - window) := by
          by_contra hcon
          simp [prune, minus, hcon] at hkept
        rw [if_pos (.inr hfits), (h.prune hkept).2, List.countP_eq_length_filter]
      · rename_i hnone
        have hfits : ¬ Fits (now - window) := fun hcon => by simp [prune, minus, hcon] at hnone
        exact (if_neg (not_or.mpr ⟨hb, hfits⟩)).symm

theorem mem_entries {calls : List Call} {t : ℤ} (h : t ∈ entries calls) : t ∈ calls.map Call.time := by
  obtain ⟨c, hc, hrec⟩ := List.mem_filterMap.mp h
  cases c with
  | record s => exact List.mem_map.mpr ⟨_, hc, Option.some.inj hrec⟩
  | count s => cases hrec

theorem run_holds {window : ℤ} {calls : List Call} {now : ℤ} (h : InOrder calls now) :
    Holds ((run window calls).getD []) (entries calls) (now - window) := by
  induction calls using List.reverseRecOn generalizing now with
  | nil => exact ⟨List.Pairwise.nil, List.Sublist.refl _, fun _ _ => rfl⟩
  | append_singleton calls c ih =>
    unfold InOrder at h
    rw [List.map_append, List.append_assoc] at h
    have hprev : InOrder calls c.time := h.sublist (List.Sublist.append_left (List.sublist_append_left _ _) _)
    have hle : c.time ≤ now := (List.pairwise_append.mp (List.pairwise_append.mp h).2.1).2.2 _ (by simp) _ (by simp)
    have hlast : ∀ x ∈ entries calls, x ≤ c.time :=
      fun x hx => (List.pairwise_append.mp hprev).2.2 x (mem_entries hx) _ (by simp)
    have hedge : c.time - window ≤ now - window := by omega
    have hrun : run window (calls ++ [c]) = call window (run window calls) c := List.foldl_concat ..
    rw [hrun]
    refine Holds.later ?_ hedge
    cases c with
    | record t =>
      have hentries : entries (calls ++ [.record t]) = entries calls ++ [t] := List.filterMap_append
      rw [hentries]
      exact record_holds (ih hprev) hlast
    | count t =>
      have hentries : entries (calls ++ [.count t]) = entries calls := by
        unfold entries
        rw [List.filterMap_append]
        exact List.append_nil _
      rw [hentries]
      exact count_holds (ih hprev)

theorem last_of_inOrder {calls : List Call} {now : ℤ} (h : InOrder calls now) : ∀ t ∈ entries calls, t ≤ now :=
  fun t ht => (List.pairwise_append.mp h).2.2 t (mem_entries ht) now (by simp)

/-! ## The refusal -/

/-- With the moment at which the customer can try again. -/
structure CapStatus where
  allowed : Bool
  reason : Option String
  retryAt : Option ℤ

def CapStatus.blocked (reason : String) (retryAt : ℤ) : CapStatus := ⟨false, some reason, some retryAt⟩

def hour : ℤ := 3600000000000

/-- Where chrono has no such month, `now` itself. -/
def nextPeriodStart (now : ℤ) : ℤ :=
  let d := date now
  let start := if d.month = 12 then midnight ⟨d.year + 1, 1, 1⟩ else midnight ⟨d.year, d.month + 1, 1⟩
  if Fits start then start else now

/-- `none` when an hour later is no instant. -/
def decide (hourlyCount monthCostCents : ℤ) (limits : CapLimits) (now : ℤ) : Option CapStatus :=
  if hourlyCount ≥ limits.ratePerCustomerPerHour then
    (plus now hour).map (CapStatus.blocked "hourly_rate_cap")
  else if monthCostCents ≥ limits.costCapPerCustomerPerMonthCents then
    some (.blocked "monthly_cost_cap" (nextPeriodStart now))
  else
    some ⟨true, none, none⟩

def Allows (status : Option CapStatus) : Prop := ∃ s, status = some s ∧ s.allowed = true

variable {limits : CapLimits} {hourly cost now : ℤ}

theorem decide_allows :
    Allows (decide hourly cost limits now) ↔
      hourly < limits.ratePerCustomerPerHour ∧ cost < limits.costCapPerCustomerPerMonthCents := by
  unfold decide
  constructor
  · rintro ⟨s, hs, hallowed⟩
    split at hs
    · obtain ⟨r, -, rfl⟩ := Option.map_eq_some_iff.mp hs
      cases hallowed
    · split at hs
      · obtain rfl := Option.some.inj hs
        cases hallowed
      · omega
  · rintro ⟨hrate, hcost⟩
    rw [if_neg (by omega), if_neg (by omega)]
    exact ⟨_, rfl, rfl⟩

theorem decide_hourly {s : CapStatus} (h : decide hourly cost limits now = some s) (hreason : s.reason = some "hourly_rate_cap") :
    limits.ratePerCustomerPerHour ≤ hourly ∧ Fits (now + hour) ∧ s.retryAt = some (now + hour) := by
  unfold decide at h
  split at h
  · obtain ⟨r, hr, rfl⟩ := Option.map_eq_some_iff.mp h
    obtain ⟨hfits, rfl⟩ := plus_eq_some.mp hr
    exact ⟨by omega, hfits, rfl⟩
  · split at h
    all_goals
      obtain rfl := Option.some.inj h
      simp [CapStatus.blocked] at hreason

theorem decide_monthly {s : CapStatus} (h : decide hourly cost limits now = some s) (hreason : s.reason = some "monthly_cost_cap") :
    s.retryAt = some (nextPeriodStart now) := by
  unfold decide at h
  split at h
  · obtain ⟨r, -, rfl⟩ := Option.map_eq_some_iff.mp h
    simp [CapStatus.blocked] at hreason
  · split at h
    · obtain rfl := Option.some.inj h
      rfl
    · obtain rfl := Option.some.inj h
      cases hreason

/-! ### The month after -/

/-- `d'` is in the month after the one of `d`. -/
def NextMonth (d d' : Date) : Prop :=
  (d.month = 12 ∧ d'.year = d.year + 1 ∧ d'.month = 1) ∨ (d.month < 12 ∧ d'.year = d.year ∧ d'.month = d.month + 1)

theorem not_nextMonth_self (d : Date) : ¬ NextMonth d d := by
  unfold NextMonth
  omega

theorem nextPeriodStart_iff (hfits : Fits now) :
    NextMonth (date now) (date (nextPeriodStart now)) ↔ (date now).year < 262142 ∨ (date now).month < 12 := by
  obtain ⟨hlow, hhigh⟩ := (fits_iff now).mp hfits
  have hmonth : 1 ≤ (date now).month ∧ (date now).month ≤ 12 := ⟨(dateOf_valid _).month, dateOf_month_le _⟩
  unfold nextPeriodStart
  dsimp only
  split
  · rename_i hdecember
    have hvalid : (⟨(date now).year + 1, 1, 1⟩ : Date).Valid := midnight_valid_first le_rfl (by decide)
    split
    · rename_i hstart
      rw [fits_iff, date_midnight hvalid] at hstart
      rw [date_midnight hvalid]
      exact iff_of_true (.inl ⟨hdecember, rfl, rfl⟩) (.inl (by dsimp only at hstart; omega))
    · rename_i hstart
      rw [fits_iff, date_midnight hvalid] at hstart
      refine iff_of_false (not_nextMonth_self _) ?_
      dsimp only at hstart
      omega
  · rename_i hdecember
    have hvalid : (⟨(date now).year, (date now).month + 1, 1⟩ : Date).Valid := midnight_valid_first (by omega) (by omega)
    have hstart : Fits (midnight ⟨(date now).year, (date now).month + 1, 1⟩) := by
      rw [fits_iff, date_midnight hvalid]
      exact ⟨hlow, hhigh⟩
    rw [if_pos hstart, date_midnight hvalid]
    exact iff_of_true (.inr ⟨by omega, rfl, rfl⟩) (.inr (by omega))

/-- At the moment that the refusal names, the window holds what was recorded at the moment of the refusal. -/
theorem count_again {calls : List Call} {n : ℕ} (h : InOrder calls now) (hn : (count hour (run hour calls) now).2 = some n)
    (hfits : Fits (now + hour)) :
    (count hour (count hour (run hour calls) now).1 (now + hour)).2 = some ((entries calls).count now) := by
  have hedge : now + hour - hour = now := by omega
  have hle : now - hour ≤ now + hour - hour := by
    unfold hour
    omega
  have hreturns : ((count hour (run hour calls) now).1.getD [] = [] ∨ Fits (now + hour - hour)) := by
    rw [hedge]
    rw [count_eq (run_holds h)] at hn
    split at hn
    · rename_i hedge
      rcases hedge with hnil | hlow
      · left
        unfold count
        split
        · rfl
        · rename_i bucket hb
          obtain rfl : bucket = [] := by rwa [hb] at hnil
          rfl
      · right
        unfold Fits hour at *
        omega
    · cases hn
  rw [count_eq ((count_holds (run_holds h)).later hle), if_pos hreturns, hedge, List.count_eq_countP]
  refine congrArg some (List.countP_congr fun t ht => ?_)
  have := last_of_inOrder h t ht
  rw [decide_eq_true_eq, beq_iff_eq]
  omega

/-! ## What is promised -/

/-- The count is the number of entries in the window, as long as its edge is an instant. A refusal of the hourly cap names a moment
at which the customer is let in when fewer entries than the limit were made at the very moment of the refusal and the month is paid
for, and one of the monthly cap a moment of the next month, as long as there is one. -/
theorem retry_exact_iff (calls : List Call) (now : ℤ) (cost : ℤ) (limits : CapLimits) :
    (∀ window, InOrder calls now →
      (count window (run window calls) now).2 =
        if (run window calls).getD [] = [] ∨ Fits (now - window) then
          some ((entries calls).countP fun t => now - window ≤ t ∧ t ≤ now)
        else none) ∧
    (∀ (n : ℕ) cost' s r, InOrder calls now →
      (count hour (run hour calls) now).2 = some n →
      decide n cost limits now = some s → s.reason = some "hourly_rate_cap" → s.retryAt = some r →
      ((∃ m : ℕ, (count hour (count hour (run hour calls) now).1 r).2 = some m ∧ Allows (decide m cost' limits r)) ↔
        (entries calls).count now < limits.ratePerCustomerPerHour ∧ cost' < limits.costCapPerCustomerPerMonthCents)) ∧
    (∀ hourly s r, Fits now →
      decide hourly cost limits now = some s → s.reason = some "monthly_cost_cap" → s.retryAt = some r →
      (NextMonth (date now) (date r) ↔ (date now).year < 262142 ∨ (date now).month < 12)) := by
  refine ⟨fun window h => ?_, fun n cost' s r h hn hs hreason hr => ?_, fun hourly s r hfits hs hreason hr => ?_⟩
  · rw [count_eq (run_holds h)]
    have hlast := last_of_inOrder h
    rw [List.countP_congr fun t ht => ?_]
    simp [hlast t ht]
  · obtain ⟨-, hfits, hretry⟩ := decide_hourly hs hreason
    obtain rfl := Option.some.inj (hretry.symm.trans hr)
    rw [count_again h hn hfits]
    constructor
    · rintro ⟨m, hm, hallows⟩
      obtain rfl := Option.some.inj hm
      exact decide_allows.mp hallows
    · intro hboth
      exact ⟨_, rfl, decide_allows.mpr hboth⟩
  · obtain rfl := Option.some.inj ((decide_monthly hs hreason).symm.trans hr)
    exact nextPeriodStart_iff hfits

/-- One message allowed in an hour, and the second one is asked for in the moment of the first: an hour later, the first still
counts. And December of the last year has no month after it. -/
theorem retry_departs :
    let calls : List Call := [.record 0]
    let limits : CapLimits := ⟨1, 200⟩
    (count hour (run hour calls) 0).2 = some 1 ∧
    (decide 1 0 limits 0).map CapStatus.retryAt = some (some hour) ∧
    (count hour (count hour (run hour calls) 0).1 hour).2 = some 1 ∧
    (decide 1 0 limits hour).map CapStatus.allowed = some false ∧
    Fits maxUtc ∧ (decide 0 200 limits maxUtc).map CapStatus.retryAt = some (some maxUtc) := by
  decide +kernel

end BssCli.Chat.Retry
