import AutoTrade.Execution.SmartRouter
import Mathlib.Tactic.Positivity

/-! # What the router picks

A broker once found available stays so while orders are routed, so the scores
of a weighted selection are those of one state. The selection looks for the
maximum from a score of -1, which a broker without a listed fee can stay below;
and the round robin counts modulo 1000, whatever the number of brokers.
-/

namespace AutoTrade.Execution

open AutoTrade.Library

namespace SmartRouter

/-! ## Listing the brokers -/

/-- The adapter's calls raise only what the router catches. -/
def Handled (adapter : BrokerAdapter) : Prop :=
  ∀ now e, (adapter.healthCheck now = .error e ∨ adapter.getOrderStatus now = .error e) →
    e.caughtBy adapterHandled = true

/-- Listing brokers changes only what is known of their health, and only for the better. -/
structure SameProfile (r r' : SmartRouter) : Prop where
  routers : r'.routers = r.routers
  cfg : r'.cfg = r.cfg
  latency : r'.latency = r.latency
  fillRates : r'.fillRates = r.fillRates
  rrIndex : r'.rrIndex = r.rrIndex
  healthy : ∀ name, r.isHealthy name = true → r'.isHealthy name = true

theorem SameProfile.refl (r : SmartRouter) : r.SameProfile r :=
  ⟨rfl, rfl, rfl, rfl, rfl, fun _ h => h⟩

theorem SameProfile.trans {r r' r'' : SmartRouter} (h : r.SameProfile r')
    (h' : r'.SameProfile r'') : r.SameProfile r'' where
  routers := h'.routers.trans h.routers
  cfg := h'.cfg.trans h.cfg
  latency := h'.latency.trans h.latency
  fillRates := h'.fillRates.trans h.fillRates
  rrIndex := h'.rrIndex.trans h.rrIndex
  healthy name hup := h'.healthy name (h.healthy name hup)

theorem isHealthy_markHealthy (r : SmartRouter) (name : String) (now : Time) (other : String) :
    (r.markHealthy name now).isHealthy other =
      if other = name then true else r.isHealthy other := by
  unfold isHealthy markHealthy
  rw [Dict.get?_set]
  split <;> rfl

theorem sameProfile_markHealthy (r : SmartRouter) (name : String) (now : Time) :
    r.SameProfile (r.markHealthy name now) := by
  refine ⟨rfl, rfl, rfl, rfl, rfl, fun other hup => ?_⟩
  rw [isHealthy_markHealthy]
  split
  · rfl
  · exact hup

section Check

variable (r : SmartRouter) (now : Time) (name : String) {adapter : BrokerAdapter}

/-- A health check leaves the router, or marks the broker and finds it up. -/
theorem recheck_cases (adapter : BrokerAdapter) :
    r.recheck now name adapter = (r.markHealthy name now, .ok true) ∨
      (∃ e, adapter.healthCheck now = .error e ∧ r.recheck now name adapter = (r, .error e)) ∨
        r.recheck now name adapter = (r, .ok false) := by
  unfold recheck
  cases hcheck : adapter.healthCheck now with
  | ok status =>
      dsimp only
      split
      · exact .inl rfl
      · exact .inr (.inr rfl)
  | error e =>
      dsimp only
      split
      · exact .inr (.inr rfl)
      · exact .inr (.inl ⟨e, rfl, rfl⟩)

theorem verify_of_handled (handled : Handled adapter) : verify adapter now = .ok true := by
  unfold verify
  cases hstatus : adapter.getOrderStatus now with
  | ok status => rfl
  | error e => exact if_pos (handled now e (.inr hstatus))

/-- A broker that is up is not blacklisted and healthy from now on; the rest of the router stays. -/
theorem checkBroker_spec (adapter : BrokerAdapter) :
    r.SameProfile (r.checkBroker now name adapter).1 ∧
      ((r.checkBroker now name adapter).2 = .ok true →
        name ∉ r.cfg.blacklistedBrokers ∧
          (r.checkBroker now name adapter).1.isHealthy name = true) := by
  unfold checkBroker
  by_cases hlisted : name ∈ r.cfg.blacklistedBrokers
  · simpa [hlisted] using SameProfile.refl r
  · rw [if_neg hlisted]
    by_cases hup : r.isHealthy name = true
    · rw [if_pos hup]
      exact ⟨.refl r, fun _ => ⟨hlisted, hup⟩⟩
    · rw [if_neg hup]
      split
      · exact ⟨.refl r, fun h => by cases h⟩
      · have hmarked : (r.markHealthy name now).isHealthy name = true := by
          rw [isHealthy_markHealthy, if_pos rfl]
        rcases r.recheck_cases now name adapter with hcheck | ⟨e, -, hcheck⟩ | hcheck
        · rw [hcheck]
          exact ⟨r.sameProfile_markHealthy name now, fun _ => ⟨hlisted, hmarked⟩⟩
        · rw [hcheck]
          exact ⟨.refl r, fun h => by cases h⟩
        · rw [hcheck]
          exact ⟨.refl r, fun h => by cases h⟩

theorem checkBroker_of_healthy (handled : Handled adapter) {r : SmartRouter} {name : String}
    (hlisted : name ∉ r.cfg.blacklistedBrokers) (hup : r.isHealthy name = true) :
    r.checkBroker now name adapter = (r, .ok true) := by
  unfold checkBroker
  rw [if_neg hlisted, if_pos hup, verify_of_handled now handled]

theorem checkBroker_ok (handled : Handled adapter) :
    ∃ up, (r.checkBroker now name adapter).2 = .ok up := by
  unfold checkBroker
  have hverify := verify_of_handled now handled
  split
  · exact ⟨false, rfl⟩
  · split
    · exact ⟨true, hverify⟩
    · split
      · exact ⟨false, rfl⟩
      · rcases r.recheck_cases now name adapter with hcheck | ⟨e, herror, hcheck⟩ | hcheck
        · rw [hcheck]
          exact ⟨true, hverify⟩
        · have hcaught := handled now e (.inl herror)
          unfold recheck at hcheck
          rw [herror] at hcheck
          simp [hcaught] at hcheck
        · rw [hcheck]
          exact ⟨false, rfl⟩

end Check

/-- The rows' adapters raise nothing else. -/
def AllHandled (rows : List (String × BrokerAdapter)) : Prop := ∀ entry ∈ rows, Handled entry.2

theorem availableFrom_sameProfile (now : Time) (r : SmartRouter)
    (rows : List (String × BrokerAdapter)) : r.SameProfile (availableFrom now r rows).1 := by
  induction rows generalizing r with
  | nil => exact .refl r
  | cons entry rest ih =>
      obtain ⟨name, adapter⟩ := entry
      have hone := (r.checkBroker_spec now name adapter).1
      unfold availableFrom
      split
      · rename_i heq
        rw [heq] at hone
        exact hone
      · rename_i r₁ up heq
        rw [heq] at hone
        have hrest := ih r₁
        split
        · rename_i hlater
          rw [hlater] at hrest
          exact hone.trans hrest
        · rename_i hlater
          rw [hlater] at hrest
          exact hone.trans hrest

/-- The listed brokers stand in the order of the rows, and each is healthy from now on. -/
theorem availableFrom_spec {now : Time} {r r' : SmartRouter}
    {rows : List (String × BrokerAdapter)} {available : List String}
    (h : availableFrom now r rows = (r', .ok available)) :
    available.Sublist (rows.map Prod.fst) ∧
      ∀ b ∈ available, b ∉ r.cfg.blacklistedBrokers ∧ r'.isHealthy b = true := by
  induction rows generalizing r r' available with
  | nil =>
      cases h
      exact ⟨.slnil, fun _ hb => by cases hb⟩
  | cons entry rest ih =>
      obtain ⟨name, adapter⟩ := entry
      have hone := r.checkBroker_spec now name adapter
      unfold availableFrom at h
      split at h
      · cases h
      · rename_i r₁ up hcheck
        have hlater := availableFrom_sameProfile now r₁ rest
        rw [hcheck] at hone
        split at h
        · cases h
        · rename_i r₂ available' hrest
          rw [hrest] at hlater
          obtain ⟨hsub, hall⟩ := ih hrest
          rw [hone.1.cfg] at hall
          cases h
          cases up with
          | false => exact ⟨hsub.cons name, hall⟩
          | true =>
              obtain ⟨hlisted, hup⟩ := hone.2 rfl
              exact ⟨hsub.cons_cons name,
                List.forall_mem_cons.mpr ⟨⟨hlisted, hlater.healthy name hup⟩, hall⟩⟩

theorem availableFrom_ok (now : Time) (r : SmartRouter) {rows : List (String × BrokerAdapter)}
    (handled : AllHandled rows) : ∃ available, (availableFrom now r rows).2 = .ok available := by
  induction rows generalizing r with
  | nil => exact ⟨[], rfl⟩
  | cons entry rest ih =>
      obtain ⟨name, adapter⟩ := entry
      obtain ⟨hhead, hrest⟩ := List.forall_mem_cons.mp handled
      obtain ⟨up, hup⟩ := r.checkBroker_ok now name hhead
      obtain ⟨available, havailable⟩ := ih (r.checkBroker now name adapter).1 hrest
      unfold availableFrom
      split
      · rename_i heq
        rw [heq] at hup
        cases hup
      · rename_i r₁ up' heq
        rw [heq] at havailable
        split
        · rename_i hlater
          rw [hlater] at havailable
          cases havailable
        · exact ⟨_, rfl⟩

/-- A healthy broker that is not blacklisted is listed. -/
theorem mem_availableFrom {now : Time} {r r' : SmartRouter}
    {rows : List (String × BrokerAdapter)} (handled : AllHandled rows) {available : List String}
    (h : availableFrom now r rows = (r', .ok available)) {b : String}
    (hrow : b ∈ rows.map Prod.fst) (hlisted : b ∉ r.cfg.blacklistedBrokers)
    (hup : r.isHealthy b = true) : b ∈ available := by
  induction rows generalizing r r' available with
  | nil => cases hrow
  | cons entry rest ih =>
      obtain ⟨name, adapter⟩ := entry
      obtain ⟨hhead, hrest⟩ := List.forall_mem_cons.mp handled
      have hone := (r.checkBroker_spec now name adapter).1
      unfold availableFrom at h
      split at h
      · cases h
      · rename_i r₁ up hcheck
        rw [hcheck] at hone
        split at h
        · cases h
        · rename_i r₂ available' hlater
          cases h
          rcases List.mem_cons.mp hrow with hb | hb
          · subst hb
            have htrue := checkBroker_of_healthy now hhead hlisted hup
            cases hcheck.symm.trans htrue
            exact List.mem_cons_self
          · have hmem := ih hrest hlater hb (hone.cfg ▸ hlisted) (hone.healthy b hup)
            split
            · exact List.mem_cons_of_mem name hmem
            · exact hmem

/-! ## Scores during a selection -/

/-- A broker that every listing from now on finds. -/
structure Routable (r : SmartRouter) (broker : String) : Prop where
  known : broker ∈ r.routers.rows.map Prod.fst
  listed : broker ∉ r.cfg.blacklistedBrokers
  healthy : r.isHealthy broker = true

theorem Routable.of_sameProfile {r r' : SmartRouter} {broker : String}
    (routable : r.Routable broker) (h : r.SameProfile r') : r'.Routable broker where
  known := h.routers ▸ routable.known
  listed := h.cfg ▸ routable.listed
  healthy := h.healthy broker routable.healthy

theorem SameProfile.brokerScore {r r' : SmartRouter} (h : r.SameProfile r') (broker : String)
    (isAvailable : Bool) :
    r'.brokerScore broker isAvailable = r.brokerScore broker isAvailable := by
  unfold SmartRouter.brokerScore SmartRouter.feeScore SmartRouter.actualFee SmartRouter.maxFee
    SmartRouter.allFees SmartRouter.latencyScore SmartRouter.executionScore
  rw [h.cfg, h.latency, h.fillRates]

theorem routable_of_available {now : Time} {r r' : SmartRouter} {available : List String}
    (found : r.availableBrokers now = (r', .ok available)) {broker : String}
    (hb : broker ∈ available) : r'.Routable broker := by
  obtain ⟨hsub, hall⟩ := availableFrom_spec found
  have hsame : r.SameProfile r' := by
    have hfrom := availableFrom_sameProfile now r r.routers.rows
    rwa [show availableFrom now r r.routers.rows = (r', .ok available) from found] at hfrom
  obtain ⟨hlisted, hup⟩ := hall broker hb
  exact ⟨hsame.routers ▸ hsub.mem hb, hsame.cfg ▸ hlisted, hup⟩

/-- At whatever time a routable broker is scored, it is scored as available. -/
theorem scoreBroker_of_routable {r : SmartRouter} (handled : AllHandled r.routers.rows) (now : Time)
    {broker : String} (routable : r.Routable broker) :
    ∃ r', r.SameProfile r' ∧
      r.scoreBroker now broker = (r', .ok (some (r.brokerScore broker true))) := by
  obtain ⟨available, havailable⟩ := availableFrom_ok now r handled
  have hsame := availableFrom_sameProfile now r r.routers.rows
  have hfound : r.availableBrokers now =
      ((availableFrom now r r.routers.rows).1, .ok available) := Prod.ext rfl havailable
  have hmem := mem_availableFrom handled hfound routable.known routable.listed routable.healthy
  have hknown : r.routers.contains broker = true := by
    obtain ⟨entry, hentry, hkey⟩ := List.mem_map.mp routable.known
    unfold Table.contains
    rw [← hkey, Table.find?_of_mem hentry]
    rfl
  refine ⟨_, hsame, ?_⟩
  unfold scoreBroker
  rw [if_neg routable.listed, if_neg (not_not.mpr hknown), hfound]
  simp only [decide_eq_true hmem, hsame.brokerScore]

/-- What `score_broker` gives an available broker in total. -/
def totalScore (r : SmartRouter) (broker : String) : ℚ := (r.brokerScore broker true).score

theorem weightedFrom_eq {r : SmartRouter} (handled : AllHandled r.routers.rows)
    (scoredAt : String → Time) (best : String) (bestScore : ℚ) {brokers : List String}
    (routable : ∀ b ∈ brokers, r.Routable b) :
    (weightedFrom scoredAt r best bestScore brokers).2 =
      .ok (some (leadFrom r.totalScore best bestScore brokers)) := by
  induction brokers generalizing r best bestScore with
  | nil => rfl
  | cons b rest ih =>
      obtain ⟨r', hsame, hscore⟩ :=
        scoreBroker_of_routable handled (scoredAt b) (routable b List.mem_cons_self)
      have hrest : ∀ c ∈ rest, r'.Routable c := fun c hc =>
        (routable c (List.mem_cons_of_mem b hc)).of_sameProfile hsame
      have htotal : r'.totalScore = r.totalScore := by
        funext c
        exact congrArg BrokerScore.score (hsame.brokerScore c true)
      unfold weightedFrom leadFrom
      rw [hscore]
      dsimp only
      rw [show (r.brokerScore b true).score = r.totalScore b from rfl]
      by_cases hbeats : bestScore < r.totalScore b
      · rw [if_pos hbeats, if_pos hbeats, ih (hsame.routers ▸ handled) _ _ hrest, htotal]
      · rw [if_neg hbeats, if_neg hbeats, ih (hsame.routers ▸ handled) _ _ hrest, htotal]

/-! ## Scores above the starting one -/

theorem latencyScore_nonneg (r : SmartRouter) (broker : String) : 0 ≤ r.latencyScore broker := by
  unfold latencyScore
  dsimp only
  split
  · norm_num
  · exact le_max_left _ _

theorem executionScore_nonneg (r : SmartRouter) (broker : String) :
    0 ≤ r.executionScore broker := by
  unfold executionScore
  dsimp only
  split
  · norm_num
  · positivity

/-- A broker with a fee of its own pays at most the highest one. -/
theorem feeScore_nonneg {r : SmartRouter} {broker : String} {fee : ℚ}
    (listed : r.allFees.get? broker = some fee) : 0 ≤ r.feeScore broker := by
  have hmem : fee ∈ r.allFees.rows.map Prod.snd :=
    List.mem_map.mpr ⟨(broker, fee), (Dict.get?_eq_some_iff _ _ _).mp listed, rfl⟩
  have hle : r.actualFee broker ≤ r.maxFee := by
    unfold actualFee maxFee
    rw [listed, Option.getD_some]
    cases hmax : (r.allFees.rows.map Prod.snd).max? with
    | none => exact absurd hmem (by rw [List.max?_eq_none_iff.mp hmax]; exact List.not_mem_nil)
    | some top => exact (List.max?_le_iff hmax).mp le_rfl fee hmem
  unfold feeScore
  split
  · rename_i hpos
    exact sub_nonneg.mpr ((div_le_one hpos).mpr hle)
  · norm_num

theorem totalScore_nonneg {r : SmartRouter} {broker : String} {fee : ℚ}
    (listed : r.allFees.get? broker = some fee) : 0 ≤ r.totalScore broker := by
  have hfee := feeScore_nonneg listed
  have hlatency := r.latencyScore_nonneg broker
  have hexecution := r.executionScore_nonneg broker
  refine roundTo_nonneg 4 ?_
  rw [if_pos rfl]
  positivity

/-! ## Round robin -/

/-- The router rotates through these brokers: none of them is preferred. -/
structure InRoundRobin (r : SmartRouter) (available : List String) : Prop where
  strategy : r.cfg.strategy = "round_robin"
  preferred : r.cfg.preferredBroker = "" ∨ r.cfg.preferredBroker ∉ available

/-- The selection finds these brokers available. -/
def Finds (available : List String) (r : SmartRouter) (clock : SelectionClock) : Prop :=
  (r.availableBrokers clock.now).2 = .ok available

def select (r : SmartRouter) (clock : SelectionClock) : SmartRouter := (r.selectBroker clock).1

/-- What selections in a row return. -/
def picks : SmartRouter → List SelectionClock → List (Except PyExc (Option String))
  | _, [] => []
  | r, clock :: rest => (r.selectBroker clock).2 :: picks (r.select clock) rest

section RoundRobin

variable {r : SmartRouter} {available : List String}

theorem selectBroker_roundRobin (mode : r.InRoundRobin available) (nonempty : available ≠ [])
    {clock : SelectionClock} (found : Finds available r clock) :
    ∃ r', r.SameProfile r' ∧ r.selectBroker clock =
      ({ r' with rrIndex := (r.rrIndex + 1) % 1000 },
        .ok available[r.rrIndex % available.length]?) := by
  have hsame : r.SameProfile (r.availableBrokers clock.now).1 :=
    availableFrom_sameProfile clock.now r r.routers.rows
  obtain ⟨first, rest, rfl⟩ := List.exists_cons_of_ne_nil nonempty
  have hfound : r.availableBrokers clock.now =
      ((r.availableBrokers clock.now).1, .ok (first :: rest)) := Prod.ext rfl found
  generalize (r.availableBrokers clock.now).1 = r₁ at hsame hfound
  have hpreferred : ¬ (r₁.cfg.preferredBroker ≠ "" ∧ r₁.cfg.preferredBroker ∈ first :: rest) := by
    rw [hsame.cfg]
    rintro ⟨hne, hmem⟩
    exact mode.preferred.elim hne fun h => h hmem
  have hstrategy : r₁.cfg.strategy = "round_robin" := by
    rw [hsame.cfg]
    exact mode.strategy
  refine ⟨r₁, hsame, ?_⟩
  unfold selectBroker
  rw [hfound]
  dsimp only
  rw [if_neg hpreferred, hstrategy, if_neg (by decide), if_pos rfl]
  unfold selectRoundRobin
  dsimp only
  rw [hsame.rrIndex]

/-- The index moves on and the mode stays. -/
theorem select_roundRobin (mode : r.InRoundRobin available) (nonempty : available ≠ [])
    {clock : SelectionClock} (found : Finds available r clock) :
    (r.select clock).rrIndex = (r.rrIndex + 1) % 1000 ∧
      (r.select clock).InRoundRobin available := by
  obtain ⟨r', hsame, hselect⟩ := selectBroker_roundRobin mode nonempty found
  unfold select
  rw [hselect]
  exact ⟨rfl, hsame.cfg ▸ mode.strategy, hsame.cfg ▸ mode.preferred⟩

/-- Selections over a fixed list move the index on by one each, modulo 1000. -/
theorem run_select_roundRobin (mode : r.InRoundRobin available) (nonempty : available ≠ [])
    {clocks : List SelectionClock} (found : StepsMeet select (Finds available) r clocks)
    (small : r.rrIndex < 1000) :
    (run select r clocks).rrIndex = (r.rrIndex + clocks.length) % 1000 ∧
      (run select r clocks).InRoundRobin available := by
  induction clocks generalizing r with
  | nil => exact ⟨(Nat.mod_eq_of_lt small).symm, mode⟩
  | cons clock rest ih =>
      obtain ⟨hindex, hmode⟩ := select_roundRobin mode nonempty found.1
      have hrest := ih hmode found.2 (hindex ▸ Nat.mod_lt _ (by decide))
      refine ⟨?_, hrest.2⟩
      rw [show run select r (clock :: rest) = run select (r.select clock) rest from rfl, hrest.1,
        hindex, Nat.mod_add_mod, List.length_cons, Nat.add_assoc, Nat.add_comm 1]

theorem picks_roundRobin (mode : r.InRoundRobin available) (nonempty : available ≠ [])
    {clocks : List SelectionClock} (found : StepsMeet select (Finds available) r clocks)
    (small : r.rrIndex < 1000) :
    r.picks clocks = (List.range clocks.length).map fun j =>
      .ok available[(r.rrIndex + j) % 1000 % available.length]? := by
  induction clocks generalizing r with
  | nil => rfl
  | cons clock rest ih =>
      obtain ⟨r', -, hpick⟩ := selectBroker_roundRobin mode nonempty found.1
      obtain ⟨hindex, hmode⟩ := select_roundRobin mode nonempty found.1
      have hrest := ih hmode found.2 (hindex ▸ Nat.mod_lt _ (by decide))
      have hhead : (r.rrIndex + 0) % 1000 = r.rrIndex := Nat.mod_eq_of_lt small
      rw [picks, hrest, hpick, List.length_cons, List.range_succ_eq_map, List.map_cons,
        List.map_map, hhead]
      refine congrArg _ (List.map_congr_left fun j _ => ?_)
      rw [hindex, Nat.mod_add_mod, Function.comp_apply, Nat.add_assoc, Nat.add_comm 1]

/-- A window of as many selections as there are brokers returns each once exactly when the index
does not wrap inside it, or wraps where the list starts anew. -/
theorem picks_perm_iff (mode : r.InRoundRobin available) (nonempty : available ≠ [])
    {clocks : List SelectionClock} (found : StepsMeet select (Finds available) r clocks)
    (small : r.rrIndex < 1000) (whole : clocks.length = available.length) :
    (r.picks clocks).Perm (available.map fun b => .ok (some b)) ↔
      available.length ∣ 1000 ∨ r.rrIndex + available.length ≤ 1000 := by
  have hnodup : available.Nodup := by
    cases clocks with
    | nil => exact absurd (List.length_eq_zero_iff.mp whole.symm) nonempty
    | cons clock rest =>
        have hfound : r.availableBrokers clock.now = (_, .ok available) := Prod.ext rfl found.1
        exact r.routers.nodup.sublist (availableFrom_spec hfound).1
  have hpicks : r.picks clocks =
      ((Library.rotation 1000 available.length r.rrIndex).map (available[·]?)).map .ok := by
    rw [picks_roundRobin mode nonempty found small, whole, Library.rotation, List.map_map,
      List.map_map]
    rfl
  have hall : available.map (fun b => (.ok (some b) : Except PyExc (Option String))) =
      (available.map some).map .ok := by
    rw [List.map_map]
    rfl
  rw [hpicks, hall, List.map_perm_map_iff fun _ _ => Except.ok.inj, map_rotation_perm_iff hnodup,
    rotation_perm_iff small]

/-- A router all of whose brokers are up finds them all, selection after selection. -/
theorem stepsMeet_finds (handled : AllHandled r.routers.rows) {names : List String}
    (hnames : r.routers.rows.map Prod.fst = names) (up : ∀ b ∈ names, r.Routable b)
    (mode : r.InRoundRobin names) (nonempty : names ≠ []) (clocks : List SelectionClock) :
    StepsMeet select (Finds names) r clocks := by
  induction clocks generalizing r with
  | nil => trivial
  | cons clock rest ih =>
      have hfinds : Finds names r clock := by
        obtain ⟨available, havailable⟩ := availableFrom_ok clock.now r handled
        have hfound : r.availableBrokers clock.now = (_, .ok available) := Prod.ext rfl havailable
        have hall : ∀ b ∈ names, b ∈ available := fun b hb =>
          mem_availableFrom handled hfound (up b hb).known (up b hb).listed (up b hb).healthy
        have hsub := (availableFrom_spec hfound).1
        have hnodup : names.Nodup := hnames ▸ r.routers.nodup
        have hle : names.length ≤ available.length := (hnodup.subperm hall).length_le
        have heq : available = names := by
          rw [hnames] at hsub
          exact hsub.eq_of_length_le hle
        rw [← heq]
        exact havailable
      obtain ⟨r', hsame, hselect⟩ := selectBroker_roundRobin mode nonempty hfinds
      have hnext : (r.select clock).InRoundRobin names := (select_roundRobin mode nonempty hfinds).2
      have hstep : r.select clock = { r' with rrIndex := (r.rrIndex + 1) % 1000 } :=
        congrArg Prod.fst hselect
      refine ⟨hfinds, ?_⟩
      rw [hstep] at hnext ⊢
      refine ih (hsame.routers ▸ handled) (hsame.routers ▸ hnames) (fun b hb => ?_) hnext
      exact ⟨hsame.routers ▸ (up b hb).known, hsame.cfg ▸ (up b hb).listed,
        hsame.healthy b (up b hb).healthy⟩

end RoundRobin

/-! ## Both modes -/

/-- A weighted selection returns a broker no other available one scores above exactly when some
available broker scores above -1 or the first one is such a broker itself. -/
theorem selectWeighted_best_iff {r : SmartRouter} (handled : AllHandled r.routers.rows)
    (scoredAt : String → Time) {first : String} {rest : List String}
    (routable : ∀ b ∈ first :: rest, r.Routable b) :
    (∃ best ∈ first :: rest, (r.selectWeighted scoredAt first rest).2 = .ok (some best) ∧
        ∀ b ∈ first :: rest, r.totalScore b ≤ r.totalScore best) ↔
      (∃ b ∈ first :: rest, -1 < r.totalScore b) ∨
        ∀ b ∈ first :: rest, r.totalScore b ≤ r.totalScore first := by
  rw [← leadFrom_max_iff, selectWeighted, weightedFrom_eq handled scoredAt first (-1) routable]
  constructor
  · rintro ⟨best, -, hbest, hmax⟩
    cases hbest
    exact hmax
  · intro hmax
    exact ⟨_, leadFrom_mem List.mem_cons_self, rfl, hmax⟩

/-- One available broker with a fee of its own is enough. -/
theorem selectWeighted_best_of_listed {r : SmartRouter} (handled : AllHandled r.routers.rows)
    (scoredAt : String → Time) {first : String} {rest : List String}
    (routable : ∀ b ∈ first :: rest, r.Routable b) {broker : String} (hb : broker ∈ first :: rest)
    {fee : ℚ} (listed : r.allFees.get? broker = some fee) :
    ∃ best ∈ first :: rest, (r.selectWeighted scoredAt first rest).2 = .ok (some best) ∧
      ∀ b ∈ first :: rest, r.totalScore b ≤ r.totalScore best :=
  (selectWeighted_best_iff handled scoredAt routable).mpr
    (.inl ⟨broker, hb, neg_one_lt_zero.trans_le (totalScore_nonneg listed)⟩)

/-- The brokers of a listing in both modes: the weighted selection picks a best one, and after any
number of earlier selections a round of them returns each once, exactly under these conditions. -/
theorem router_picks_best_iff {r r' : SmartRouter} (handled : AllHandled r.routers.rows)
    {now : Time} {first : String} {rest : List String}
    (found : r.availableBrokers now = (r', .ok (first :: rest))) (scoredAt : String → Time)
    {q : SmartRouter} (fresh : q.rrIndex = 0) (mode : q.InRoundRobin (first :: rest))
    {earlier later : List SelectionClock}
    (steady : StepsMeet select (Finds (first :: rest)) q (earlier ++ later))
    (whole : later.length = (first :: rest).length) :
    ((∃ best ∈ first :: rest, (r'.selectWeighted scoredAt first rest).2 = .ok (some best) ∧
          ∀ b ∈ first :: rest, r'.totalScore b ≤ r'.totalScore best) ∧
        ((run select q earlier).picks later).Perm
          ((first :: rest).map fun b => .ok (some b))) ↔
      ((∃ b ∈ first :: rest, -1 < r'.totalScore b) ∨
          ∀ b ∈ first :: rest, r'.totalScore b ≤ r'.totalScore first) ∧
        ((first :: rest).length ∣ 1000 ∨
          earlier.length % 1000 + (first :: rest).length ≤ 1000) := by
  have hsame : r.SameProfile r' := by
    have hfrom := availableFrom_sameProfile now r r.routers.rows
    rwa [show availableFrom now r r.routers.rows = (r', .ok (first :: rest)) from found] at hfrom
  obtain ⟨hearlier, hlater⟩ := (stepsMeet_append q earlier later).mp steady
  obtain ⟨hindex, hmode⟩ := run_select_roundRobin mode (List.cons_ne_nil first rest) hearlier
    (by rw [fresh]; decide)
  rw [fresh, Nat.zero_add] at hindex
  refine and_congr ?_ ?_
  · exact selectWeighted_best_iff (hsame.routers ▸ handled) scoredAt
      fun b hb => routable_of_available found hb
  · rw [picks_perm_iff hmode (List.cons_ne_nil first rest) hlater
      (hindex ▸ Nat.mod_lt _ (by decide)) whole, hindex]

/-! ### Samples -/

def upAdapter : BrokerAdapter := ⟨fun _ => .ok (some "healthy"), fun _ => .ok "UNKNOWN"⟩

theorem handled_upAdapter : Handled upAdapter := by
  intro now e h
  rcases h with h | h <;> cases h

def zerodhaAndAngel (strategy : String) : SmartRouter where
  routers := Dict.set (Dict.set Table.empty "KITE" upAdapter) "ANGEL" upAdapter
  cfg := { strategy }

theorem handled_zerodhaAndAngel (strategy : String) :
    AllHandled (zerodhaAndAngel strategy).routers.rows := by
  have hrows : (zerodhaAndAngel strategy).routers.rows =
      [("KITE", upAdapter), ("ANGEL", upAdapter)] := rfl
  rw [hrows]
  simp [AllHandled, handled_upAdapter]

/-- Three brokers without a fee of their own, where the listed fees are low; the first is slow. -/
def lowFees (strategy : String) : SmartRouter where
  routers := Dict.set (Dict.set (Dict.set Table.empty "X" upAdapter) "Y" upAdapter) "Z" upAdapter
  cfg := { strategy, feeWeights := Dict.set (Dict.set Table.empty "KITE" 1) "ANGEL" 1 }
  latency := Dict.set (Dict.set Table.empty "X" [900]) "Y" [100]

theorem handled_lowFees (strategy : String) : AllHandled (lowFees strategy).routers.rows := by
  have hrows : (lowFees strategy).routers.rows =
      [("X", upAdapter), ("Y", upAdapter), ("Z", upAdapter)] := rfl
  rw [hrows]
  simp [AllHandled, handled_upAdapter]

theorem routable_lowFees (strategy : String) :
    ∀ b ∈ ["X", "Y", "Z"], (lowFees strategy).Routable b :=
  fun _ hb => ⟨hb, List.not_mem_nil, rfl⟩

def sampleClock : SelectionClock := ⟨0, fun _ => 0⟩

theorem two_brokers_picked :
    (∃ best ∈ ["KITE", "ANGEL"],
        ((zerodhaAndAngel "weighted").selectWeighted (fun _ => second) "KITE" ["ANGEL"]).2 =
            .ok (some best) ∧
          ∀ b ∈ ["KITE", "ANGEL"],
            (zerodhaAndAngel "weighted").totalScore b ≤
              (zerodhaAndAngel "weighted").totalScore best) ∧
      ((run select (zerodhaAndAngel "round_robin") [sampleClock]).picks
          [sampleClock, sampleClock]).Perm
        (["KITE", "ANGEL"].map fun b => .ok (some b)) := by
  have hfound : (zerodhaAndAngel "weighted").availableBrokers 0 =
      (zerodhaAndAngel "weighted", .ok ["KITE", "ANGEL"]) := rfl
  have hmode : (zerodhaAndAngel "round_robin").InRoundRobin ["KITE", "ANGEL"] := ⟨rfl, .inl rfl⟩
  have hsteady : StepsMeet select (Finds ["KITE", "ANGEL"]) (zerodhaAndAngel "round_robin")
      ([sampleClock] ++ [sampleClock, sampleClock]) := ⟨rfl, rfl, rfl, trivial⟩
  exact (router_picks_best_iff (handled_zerodhaAndAngel "weighted") hfound _ rfl hmode hsteady
    rfl).mpr (by decide +kernel)

/-- Three brokers: the slow one is chosen, and a round in which the index wraps misses one. -/
theorem slow_broker_and_uneven_round :
    (∃ r', (lowFees "weighted").availableBrokers 0 = (r', .ok ["X", "Y", "Z"]) ∧
        ¬ ∃ best ∈ ["X", "Y", "Z"],
          (r'.selectWeighted (fun _ => second) "X" ["Y", "Z"]).2 = .ok (some best) ∧
            ∀ b ∈ ["X", "Y", "Z"], r'.totalScore b ≤ r'.totalScore best) ∧
      ¬ ((run select (lowFees "round_robin") (List.replicate 998 sampleClock)).picks
          (List.replicate 3 sampleClock)).Perm
        (["X", "Y", "Z"].map fun b => .ok (some b)) := by
  constructor
  · refine ⟨lowFees "weighted", rfl, ?_⟩
    rw [selectWeighted_best_iff (handled_lowFees "weighted") _ (routable_lowFees "weighted")]
    decide +kernel
  · have hmode : (lowFees "round_robin").InRoundRobin ["X", "Y", "Z"] := ⟨rfl, .inl rfl⟩
    have hsteady := stepsMeet_finds (handled_lowFees "round_robin") rfl
      (routable_lowFees "round_robin") hmode (by decide)
      (List.replicate 998 sampleClock ++ List.replicate 3 sampleClock)
    obtain ⟨hearlier, hlater⟩ := (stepsMeet_append _ _ _).mp hsteady
    obtain ⟨hindex, hnext⟩ := run_select_roundRobin hmode (by decide) hearlier (by decide)
    have hindex998 : (run select (lowFees "round_robin")
        (List.replicate 998 sampleClock)).rrIndex = 998 := by
      rw [hindex, List.length_replicate]
      rfl
    rw [picks_perm_iff hnext (by decide) hlater (by rw [hindex998]; decide) rfl, hindex998]
    decide

end SmartRouter

end AutoTrade.Execution
