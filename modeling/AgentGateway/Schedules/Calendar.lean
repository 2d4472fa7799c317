import AgentGateway.Schedules.Store

/-!
# The days a schedule is due on

`candidateDays` lists days, from today on, and the next run is at the first of them whose reading of
the local clock is later than now.  This is the next day on which the cadence is due
(`exists_find?_localCandidate`): every such day is on the list, up to one that is later than today.

For a monthly cadence this needs the calendar.  A date is counted within its cycle of 400 years, in
years that begin in March, and `yearOfEra_eq_iff` says which days of the cycle are those of which
year.  From one day to the next the month stays or is the next one (`monthIndex_monthOf_succ`), so
later days have later months, and January comes, which has all days up to the 31st.
-/

open List

namespace AgentGateway.Schedules

/-! ## Years of the cycle -/

/-- The days of the cycle that `monthOf` divides by 365. -/
def leapless (d : Int) : Int := d - d / 1460 + d / 36524 - d / 146096

/-- The first day of a year of the cycle. -/
def yearStart (y : Int) : Int := 365 * y + y / 4 - y / 100

/-- The last day of a year of the cycle. -/
def yearEnd (y : Int) : Int := if y = 399 then 146096 else yearStart (y + 1) - 1

theorem leapless_mono {d e : Int} (h : d ≤ e) : leapless d ≤ leapless e := by
  have hd : d / 146096 = d / 36524 / 4 := by omega
  have he : e / 146096 = e / 36524 / 4 := by omega
  rw [leapless, leapless, hd, he]
  omega

theorem leapless_bounds : ∀ y : Fin 400, 365 * (y : Int) ≤ leapless (yearStart y) ∧
    leapless (yearEnd y) < 365 * ((y : Int) + 1) := by
  decide +kernel

theorem leapless_yearStart {y : Int} (h : 0 ≤ y) (h' : y < 400) :
    365 * y ≤ leapless (yearStart y) := by
  have := (leapless_bounds ⟨y.toNat, by omega⟩).1
  rwa [show ((⟨y.toNat, by omega⟩ : Fin 400) : Int) = y from Int.toNat_of_nonneg h] at this

theorem leapless_yearEnd {y : Int} (h : 0 ≤ y) (h' : y < 400) :
    leapless (yearEnd y) < 365 * (y + 1) := by
  have := (leapless_bounds ⟨y.toNat, by omega⟩).2
  rwa [show ((⟨y.toNat, by omega⟩ : Fin 400) : Int) = y from Int.toNat_of_nonneg h] at this

/-- Which days of the cycle are those of a year. -/
theorem yearOfEra_eq_iff {d y : Int} (hd : 0 ≤ d) (hd' : d ≤ 146096) :
    leapless d / 365 = y ↔ 0 ≤ y ∧ y < 400 ∧ yearStart y ≤ d ∧ d ≤ yearEnd y := by
  constructor
  · rintro rfl
    have hnonneg : 0 ≤ leapless d := leapless_mono hd
    have hle : leapless d ≤ leapless 146096 := leapless_mono hd'
    have hmax : leapless 146096 = 145999 := rfl
    have hy : 0 ≤ leapless d / 365 := by omega
    have hy' : leapless d / 365 < 400 := by omega
    generalize hyear : leapless d / 365 = y at hy hy' ⊢
    refine ⟨hy, hy', ?_, ?_⟩
    · by_contra hlt
      have hpos : y ≠ 0 := by
        rintro rfl
        exact hlt hd
      have hend := leapless_yearEnd (y := y - 1) (by omega) (by omega)
      rw [yearEnd, if_neg (by omega), Int.sub_add_cancel] at hend
      have := leapless_mono (Int.le_sub_one_of_lt (Int.not_le.1 hlt))
      omega
    · by_contra hlt
      rw [yearEnd] at hlt
      split at hlt
      · exact hlt hd'
      · have hstart := leapless_yearStart (y := y + 1) (by omega) (by omega)
        have := leapless_mono (show yearStart (y + 1) ≤ d by omega)
        omega
  · rintro ⟨hy, hy', hstart, hend⟩
    have := leapless_yearStart hy hy'
    have := leapless_yearEnd hy hy'
    have := leapless_mono hstart
    have := leapless_mono hend
    omega

/-! ## Months -/

/-- The months, counted through the years. -/
def monthIndex (month : Int × Int) : Int := 12 * month.1 + month.2

/-- The year and the month of a day of the cycle, from its year. -/
def monthOfYear (era year day : Int) : Int × Int :=
  let m := (5 * (day - yearStart year) + 2) / 153
  let month := if m < 10 then m + 3 else m - 9
  (year + era * 400 + if month ≤ 2 then 1 else 0, month)

theorem monthOf_eq (n : Int) : monthOf n = monthOfYear ((n + 719468) / 146097)
    (leapless ((n + 719468) % 146097) / 365) ((n + 719468) % 146097) := by
  have hmod : n + 719468 - (n + 719468) / 146097 * 146097 = (n + 719468) % 146097 := by omega
  rw [← hmod]
  rfl

theorem monthOf_eq_of {n era d : Int} (hn : n + 719468 = era * 146097 + d) (year : Int)
    (hyear : 0 ≤ year) (hyear' : year < 400) (hstart : yearStart year ≤ d)
    (hend : d ≤ yearEnd year) :
    monthOf n = monthOfYear era year d := by
  have hd : 0 ≤ d := by
    rw [yearStart] at hstart
    omega
  have hd' : d ≤ 146096 := by
    rw [yearEnd] at hend
    split at hend
    · exact hend
    · rw [yearStart] at hend
      omega
  have hera : (n + 719468) / 146097 = era := by omega
  have hday : (n + 719468) % 146097 = d := by omega
  rw [monthOf_eq, hera, hday, (yearOfEra_eq_iff hd hd').2 ⟨hyear, hyear', hstart, hend⟩]

/-- Every day is a day of some year of some cycle. -/
theorem exists_monthOfYear (n : Int) : ∃ era year d, n + 719468 = era * 146097 + d ∧ 0 ≤ year ∧
    year < 400 ∧ yearStart year ≤ d ∧ d ≤ yearEnd year ∧ monthOf n = monthOfYear era year d := by
  have hd : 0 ≤ (n + 719468) % 146097 := by omega
  have hd' : (n + 719468) % 146097 ≤ 146096 := by omega
  obtain ⟨hyear, hyear', hstart, hend⟩ := (yearOfEra_eq_iff hd hd').1 rfl
  exact ⟨_, _, _, by omega, hyear, hyear', hstart, hend, monthOf_eq n⟩

/-- A year has 365 or 366 days. -/
theorem yearEnd_le (y : Int) : yearEnd y ≤ yearStart y + 365 := by
  rw [yearEnd]
  split
  · subst y
    decide
  · rw [yearStart, yearStart]
    omega

theorem le_yearEnd (y : Int) (h : y < 400) : yearStart y + 364 ≤ yearEnd y := by
  rw [yearEnd]
  split
  · subst y
    decide
  · rw [yearStart, yearStart]
    omega

theorem monthIndex_monthOfYear {era year d : Int} (hstart : yearStart year ≤ d)
    (hend : d ≤ yearEnd year) :
    monthIndex (monthOfYear era year d) =
      12 * (year + era * 400) + 3 + (5 * (d - yearStart year) + 2) / 153 := by
  have := yearEnd_le year
  simp only [monthIndex, monthOfYear]
  split <;> split <;> omega

theorem month_bounds (n : Int) : 1 ≤ (monthOf n).2 ∧ (monthOf n).2 ≤ 12 := by
  obtain ⟨era, year, d, -, -, -, hstart, hend, heq⟩ := exists_monthOfYear n
  have := yearEnd_le year
  rw [heq]
  simp only [monthOfYear]
  split <;> omega

/-- From one day to the next the month stays or is the next one. -/
theorem monthIndex_monthOf_succ (n : Int) :
    monthIndex (monthOf n) ≤ monthIndex (monthOf (n + 1)) ∧
      monthIndex (monthOf (n + 1)) ≤ monthIndex (monthOf n) + 1 := by
  obtain ⟨era, year, d, hn, hyear, hyear', hstart, hend, heq⟩ := exists_monthOfYear n
  rw [heq, monthIndex_monthOfYear hstart hend]
  have hlast := yearEnd_le year
  have hlen := le_yearEnd year hyear'
  by_cases hsame : d + 1 ≤ yearEnd year
  · rw [monthOf_eq_of (by omega : n + 1 + 719468 = era * 146097 + (d + 1)) year hyear hyear'
      (by omega) hsame, monthIndex_monthOfYear (by omega) hsame]
    omega
  · by_cases hcycle : year = 399
    · subst hcycle
      have hd : d = 146096 := by
        rw [yearEnd, if_pos rfl] at hsame hend
        omega
      rw [monthOf_eq_of (by omega : n + 1 + 719468 = (era + 1) * 146097 + 0) 0 (by decide)
        (by decide) (by decide) (by decide), monthIndex_monthOfYear (by decide) (by decide)]
      have hzero : yearStart 0 = 0 := rfl
      omega
    · have hd : d + 1 = yearStart (year + 1) := by
        rw [yearEnd, if_neg hcycle] at hsame hend
        omega
      have hnext := le_yearEnd (year + 1) (by omega)
      rw [monthOf_eq_of (by omega : n + 1 + 719468 = era * 146097 + yearStart (year + 1))
        (year + 1) (by omega) (by omega) le_rfl (by omega),
        monthIndex_monthOfYear le_rfl (by omega)]
      omega

theorem monthIndex_monthOf_mono {n k : Int} (h : n ≤ k) :
    monthIndex (monthOf n) ≤ monthIndex (monthOf k) := by
  induction k, h using Int.leInduction with
  | base => exact le_rfl
  | succ k _ ih => exact ih.trans (monthIndex_monthOf_succ k).1

/-- January has a 31st. -/
theorem monthOf_january (year : Int) {d : Int} (hd : 1 ≤ d) (hd' : d ≤ 31) :
    monthOf (dayNumber year 1 d) = (year, 1) := by
  have hstart : yearStart ((year - 1) % 400) =
      (year - 1) % 400 * 365 + (year - 1) % 400 / 4 - (year - 1) % 400 / 100 := by
    rw [yearStart]
    omega
  have hend := le_yearEnd ((year - 1) % 400) (by omega)
  have hnumber : dayNumber year 1 d + 719468 =
      (year - 1) / 400 * 146097 + (yearStart ((year - 1) % 400) + 305 + d) := by
    have hmod : year - 1 - (year - 1) / 400 * 400 = (year - 1) % 400 := by omega
    simp only [dayNumber, show (1 : Int) ≤ 2 by decide, if_true, hmod]
    omega
  rw [monthOf_eq_of hnumber ((year - 1) % 400) (by omega) (by omega) (by omega) (by omega)]
  have hm : (5 * (yearStart ((year - 1) % 400) + 305 + d - yearStart ((year - 1) % 400)) + 2) /
    153 = 10 := by
    omega
  simp only [monthOfYear, hm]
  refine Prod.ext ?_ rfl
  omega

theorem monthIndex_nextMonth (month : Int × Int) :
    monthIndex (nextMonth month) = monthIndex month + 1 := by
  rw [nextMonth]
  split <;> simp only [monthIndex] <;> omega

theorem nextMonth_bounds {month : Int × Int} (h : 1 ≤ month.2 ∧ month.2 ≤ 12) :
    1 ≤ (nextMonth month).2 ∧ (nextMonth month).2 ≤ 12 := by
  rw [nextMonth]
  split <;> simp only <;> omega

/-- A month among those from `month` on. -/
theorem mem_iterate_nextMonth {month month' : Int × Int} (h : 1 ≤ month.2 ∧ month.2 ≤ 12)
    (h' : 1 ≤ month'.2 ∧ month'.2 ≤ 12) (n : Nat) :
    month' ∈ List.iterate nextMonth month n ↔
      monthIndex month ≤ monthIndex month' ∧ monthIndex month' < monthIndex month + n := by
  induction n generalizing month with
  | zero =>
    simp
  | succ n ih =>
    have hsame : month' = month ↔ monthIndex month' = monthIndex month := by
      rw [Prod.ext_iff]
      simp only [monthIndex]
      omega
    rw [List.iterate, mem_cons, ih (nextMonth_bounds h), monthIndex_nextMonth, hsame]
    omega

theorem pairwise_iterate_nextMonth (month : Int × Int) (n : Nat) :
    (List.iterate nextMonth month n).Pairwise fun a b ↦ monthIndex a < monthIndex b := by
  have hle : ∀ (n : Nat) (month : Int × Int), ∀ m ∈ List.iterate nextMonth month n,
      monthIndex month ≤ monthIndex m := by
    intro n
    induction n with
    | zero => simp [List.iterate]
    | succ n ih =>
      intro month m hm
      rcases mem_cons.1 hm with rfl | hm
      · exact le_rfl
      · have := ih _ m hm
        rw [monthIndex_nextMonth] at this
        omega
  induction n generalizing month with
  | zero => exact .nil
  | succ n ih =>
    refine pairwise_cons.2 ⟨fun m hm ↦ ?_, ih (nextMonth month)⟩
    have := hle n _ m hm
    rw [monthIndex_nextMonth] at this
    omega

theorem monthOf_of_date? {month : Int × Int} {dayOfMonth n : Int}
    (h : date? month dayOfMonth = some n) :
    monthOf n = month ∧ 1 ≤ dayOfMonth ∧ n = dayNumber month.1 month.2 dayOfMonth := by
  rw [date?] at h
  split at h
  next hdate =>
    cases h
    exact ⟨hdate.2, hdate.1, rfl⟩
  · cases h

/-! ## The days of a cadence -/

/-- What `AgentRunScheduleCadence` validates. -/
def Cadence.Valid : Cadence → Prop
  | .daily _ => True
  | .weekly _ days => days ≠ [] ∧ days.Nodup ∧ ∀ d ∈ days, 1 ≤ d ∧ d ≤ 7
  | .monthly _ days => days ≠ [] ∧ days.Nodup ∧ ∀ d ∈ days, 1 ≤ d ∧ d ≤ 31

/-- Is the schedule due on a day? -/
def Cadence.On (d : Int) : Cadence → Prop
  | .daily _ => True
  | .weekly _ days => isoweekday d ∈ days
  | .monthly _ days => ∃ dayOfMonth ∈ days, date? (monthOf d) dayOfMonth = some d

instance (d : Int) : ∀ cadence : Cadence, Decidable (cadence.On d)
  | .daily _ => isTrue trivial
  | .weekly _ days => inferInstanceAs (Decidable (isoweekday d ∈ days))
  | .monthly _ days =>
    inferInstanceAs (Decidable (∃ dayOfMonth ∈ days, date? (monthOf d) dayOfMonth = some d))

theorem on_of_mem_candidateDays {cadence : Cadence} {today d : Int}
    (h : d ∈ candidateDays today cadence) :
    cadence.On d := by
  cases cadence with
  | daily => trivial
  | weekly => exact of_decide_eq_true (mem_filter.1 h).2
  | monthly =>
    obtain ⟨month, -, hd⟩ := mem_flatMap.1 h
    obtain ⟨dayOfMonth, hmem, hdate⟩ := mem_filterMap.1 hd
    refine ⟨dayOfMonth, (mem_insertionSort _).1 hmem, ?_⟩
    rw [(monthOf_of_date? hdate).1]
    exact hdate

theorem candidateDays_weekly (today : Int) (t : TimeOfDay) (days : List Int) :
    candidateDays today (.weekly t days) =
      ((List.range 15).map fun i : Nat ↦ today + (i : Int)).filter fun d ↦
        decide (isoweekday d ∈ days) := rfl

theorem mem_range_map {today d : Int} {n : Nat} (hle : today ≤ d) (hlt : d < today + n) :
    d ∈ (List.range n).map fun i : Nat ↦ today + (i : Int) := by
  refine mem_map.2 ⟨(d - today).toNat, mem_range.2 ?_, ?_⟩ <;> omega

theorem pairwise_range (today : Int) (n : Nat) :
    ((List.range n).map fun i : Nat ↦ today + (i : Int)).Pairwise (· ≤ ·) := by
  rw [pairwise_map]
  exact pairwise_lt_range.imp fun {a b} h ↦ by omega

theorem pairwise_candidateDays (today : Int) (cadence : Cadence) :
    (candidateDays today cadence).Pairwise (· ≤ ·) := by
  cases cadence with
  | daily => exact pairwise_range today 3
  | weekly =>
    rw [candidateDays_weekly]
    exact (pairwise_range today 15).filter _
  | monthly t days =>
    refine pairwise_flatMap.2 ⟨fun month _ ↦ ?_, ?_⟩
    · rw [pairwise_filterMap]
      refine (pairwise_insertionSort (· ≤ ·) days).imp ?_
      intro a b hab x hx y hy
      obtain ⟨-, -, rfl⟩ := monthOf_of_date? hx
      obtain ⟨-, -, rfl⟩ := monthOf_of_date? hy
      simp only [dayNumber]
      omega
    · refine (pairwise_iterate_nextMonth (monthOf today) 24).imp ?_
      intro a b hab x hx y hy
      obtain ⟨_, -, hx⟩ := mem_filterMap.1 hx
      obtain ⟨_, -, hy⟩ := mem_filterMap.1 hy
      by_contra hlt
      have hmono := monthIndex_monthOf_mono (Int.le_of_lt (Int.not_le.1 hlt))
      rw [(monthOf_of_date? hx).1, (monthOf_of_date? hy).1] at hmono
      omega

/-- The list goes as far as a day later than today, and up to there it leaves out no day. -/
theorem exists_horizon {cadence : Cadence} (hvalid : cadence.Valid) (today : Int) :
    ∃ e ∈ candidateDays today cadence, today < e ∧
      ∀ d, cadence.On d → today ≤ d → d ≤ e → d ∈ candidateDays today cadence := by
  cases cadence with
  | daily t =>
    have hmem : ∀ d, today ≤ d → d ≤ today + 1 → d ∈ candidateDays today (.daily t) := by
      intro d hle hlt
      exact mem_range_map (n := 3) hle (by omega)
    exact ⟨today + 1, hmem _ (by omega) le_rfl, by omega, fun d _ ↦ hmem d⟩
  | weekly t days =>
    have hmem : ∀ d, isoweekday d ∈ days → today ≤ d → d ≤ today + 7 →
        d ∈ candidateDays today (.weekly t days) := by
      intro d hon hle hlt
      rw [candidateDays_weekly]
      exact mem_filter.2 ⟨mem_range_map hle (by omega), decide_eq_true hon⟩
    obtain ⟨hne, -, hdays⟩ := hvalid
    obtain ⟨w, hw⟩ := exists_mem_of_ne_nil days hne
    have hbounds := hdays w hw
    -- the next day with that weekday
    have hweekday : isoweekday (today + 1 + (w - 1 - (today + 4)) % 7) = w := by
      rw [isoweekday]
      omega
    refine ⟨_, hmem _ (hweekday.symm ▸ hw) (by omega) (by omega), by omega, fun d hon hle hlt ↦ ?_⟩
    exact hmem d hon hle (by omega)
  | monthly t days =>
    obtain ⟨hne, -, hdays⟩ := hvalid
    obtain ⟨w, hw⟩ := exists_mem_of_ne_nil days hne
    have hbounds := hdays w hw
    have htoday := month_bounds today
    -- the day in the next January
    have hjanuary := monthOf_january ((monthOf today).1 + 1) hbounds.1 hbounds.2
    generalize he : dayNumber ((monthOf today).1 + 1) 1 w = e at hjanuary
    have hmem : ∀ d, (Cadence.monthly t days).On d → today ≤ d → d ≤ e →
        d ∈ candidateDays today (.monthly t days) := by
      rintro d ⟨dayOfMonth, hday, hdate⟩ hle hlt
      have hfrom := monthIndex_monthOf_mono hle
      have hto := monthIndex_monthOf_mono hlt
      refine mem_flatMap.2 ⟨monthOf d, ?_, mem_filterMap.2
        ⟨dayOfMonth, (mem_insertionSort _).2 hday, hdate⟩⟩
      rw [mem_iterate_nextMonth htoday (month_bounds d)]
      refine ⟨hfrom, ?_⟩
      rw [hjanuary] at hto
      simp only [monthIndex] at hto ⊢
      omega
    have hlt : today < e := by
      by_contra hle
      have := monthIndex_monthOf_mono (Int.not_lt.1 hle)
      rw [hjanuary] at this
      simp only [monthIndex] at this
      omega
    refine ⟨e, hmem e ⟨w, hw, ?_⟩ (Int.le_of_lt hlt) le_rfl, hlt, hmem⟩
    rw [hjanuary, date?, he, if_pos ⟨hbounds.1, hjanuary⟩]

/-! ## The next reading -/

theorem localCandidate_le_iff {d e : Int} (t : TimeOfDay) :
    localCandidate d t ≤ localCandidate e t ↔ d ≤ e := by
  simp only [localCandidate, day, second]
  omega

/-- A reading on a day is one of the clock's on that day. -/
theorem localCandidate_ediv (d : Int) (t : TimeOfDay) : localCandidate d t / day = d := by
  simp only [localCandidate, day, second]
  omega

/-- The first entry of an ordered list that passes a test is the least one. -/
theorem le_of_find? {l : List Int} {p : Int → Bool} {x y : Int} (hl : l.Pairwise (· ≤ ·))
    (hx : l.find? p = some x) (hy : y ∈ l) (hp : p y = true) : x ≤ y := by
  obtain ⟨-, before, later, rfl, hbefore⟩ := find?_eq_some_iff_append.1 hx
  rcases mem_append.1 hy with hmem | hmem
  · have hnot := hbefore y hmem
    rw [hp] at hnot
    cases hnot
  · rcases mem_cons.1 hmem with rfl | hmem
    · exact le_rfl
    · exact rel_of_pairwise_cons (pairwise_append.1 hl).2.1 hmem

/-- **The code finds the next reading of the local clock at which the cadence is due.** -/
theorem exists_find?_localCandidate {cadence : Cadence} (hvalid : cadence.Valid) (reference : Int) :
    ∃ next,
      ((candidateDays (reference / day) cadence).map (localCandidate · cadence.timeOfDay)).find?
        (fun c ↦ decide (reference < c)) = some next ∧
      IsLeast {c | reference < c ∧ ∃ d, cadence.On d ∧ localCandidate d cadence.timeOfDay = c}
        next := by
  generalize cadence.timeOfDay = t
  obtain ⟨e, he, hlt, hmem⟩ := exists_horizon hvalid (reference / day)
  have hahead : ∀ d, reference < localCandidate d t → reference / day ≤ d := by
    intro d hd
    have := Int.ediv_le_ediv (by decide : 0 < day) (Int.le_of_lt hd)
    rwa [localCandidate_ediv] at this
  have hnext : reference < localCandidate e t := by
    by_contra hge
    have := Int.ediv_le_ediv (by decide : 0 < day) (Int.not_lt.1 hge)
    rw [localCandidate_ediv] at this
    omega
  have hsome : (((candidateDays (reference / day) cadence).map (localCandidate · t)).find?
      fun c ↦ decide (reference < c)).isSome := by
    rw [find?_isSome]
    exact ⟨_, mem_map_of_mem he, decide_eq_true hnext⟩
  obtain ⟨next, hfind⟩ := Option.isSome_iff_exists.1 hsome
  have hsorted : ((candidateDays (reference / day) cadence).map (localCandidate · t)).Pairwise
      (· ≤ ·) := by
    rw [pairwise_map]
    exact (pairwise_candidateDays _ cadence).imp fun {a b} ↦ (localCandidate_le_iff t).2
  refine ⟨next, hfind, ⟨by simpa using find?_some hfind, ?_⟩, ?_⟩
  · obtain ⟨d, hd, rfl⟩ := mem_map.1 (mem_of_find?_eq_some hfind)
    exact ⟨d, on_of_mem_candidateDays hd, rfl⟩
  · rintro c ⟨hc, d, hon, rfl⟩
    by_cases hde : d ≤ e
    · exact le_of_find? hsorted hfind (mem_map_of_mem (hmem d hon (hahead d hc) hde))
        (decide_eq_true hc)
    · have hle := le_of_find? hsorted hfind (mem_map_of_mem he) (decide_eq_true hnext)
      exact hle.trans ((localCandidate_le_iff t).2 (by omega))

end AgentGateway.Schedules
