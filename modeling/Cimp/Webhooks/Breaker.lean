import Cimp.Entities
import Cimp.Lib.Execution
import Mathlib.Data.List.Count
import Mathlib.Logic.Function.Basic

namespace Cimp

open Execution

structure EndpointHealth where
  failures : ℕ
  mutedUntil : Time
deriving DecidableEq, Repr

/-- The fields of the service that its tests shrink. -/
structure BreakerConfig where
  retryDelaysMs : List ℕ := [2000, 8000, 30000]
  muteAfterFailures : ℕ := 3
  muteCooldownMs : ℕ := 5 * 60000

inductive DeliveryPhase
  | sending (tryIdx : ℕ)
  | waiting (tryIdx : ℕ) (due : Time)
  | delivered
  | exhausted
deriving DecidableEq, Repr

def DeliveryPhase.finished : DeliveryPhase → Bool
  | .sending _ | .waiting _ _ => false
  | .delivered | .exhausted => true

/-- A delivery from its first attempt on. It is a `probe` when it was started while its endpoint was
muted and no send to the endpoint has succeeded since; `skippedUntil` is the mute it was started under. -/
structure Delivery where
  endpoint : WebhookEndpoint
  eventName : String
  body : String
  phase : DeliveryPhase
  startedAt : Time
  skippedUntil : Time
  probe : Bool
deriving DecidableEq, Repr

def Delivery.recover (id : Uuid) (d : Delivery) : Delivery :=
  if d.endpoint.id = id then { d with probe := false } else d

def Delivery.probing (id : Uuid) (d : Delivery) : Bool := d.endpoint.id = id && d.probe && !d.phase.finished

structure Webhooks where
  endpoints : Table WebhookEndpoint.id
  clock : Time
  health : Uuid → Option EndpointHealth
  deliveries : List Delivery

namespace WebhooksService

def subscribers (endpoints : Table WebhookEndpoint.id) (eventName : String) (platformId : Uuid) :
    List WebhookEndpoint :=
  (endpoints.rows.filter fun ep => ep.enabled && (ep.platform = none || ep.platform = some platformId)).filter
    fun ep => ¬ (0 < ep.events.length ∧ eventName ∉ ep.events)

def onDelivered (health : Uuid → Option EndpointHealth) (ep : WebhookEndpoint) : Uuid → Option EndpointHealth :=
  Function.update health ep.id none

def onExhausted (cfg : BreakerConfig) (now : Time) (health : Uuid → Option EndpointHealth) (ep : WebhookEndpoint) :
    Uuid → Option EndpointHealth :=
  let state := (health ep.id).getD ⟨0, 0⟩
  let failures := state.failures + 1
  let mutedUntil := if cfg.muteAfterFailures ≤ failures then now + cfg.muteCooldownMs else state.mutedUntil
  Function.update health ep.id (some ⟨failures, mutedUntil⟩)

end WebhooksService

namespace Webhooks

/-- Sends and timers are detached: a send comes back whenever it does, a timer fires when it is due
or later. -/
inductive Action
  | tick (d : ℕ)
  | deliver (eventName : String) (platformId : Uuid) (body : String)
  | settle (delivery : ℕ) (ok : Bool)
  | retry (delivery : ℕ)

def start (endpoints : Table WebhookEndpoint.id) (clock : Time) : Webhooks := ⟨endpoints, clock, fun _ => none, []⟩

def mutedUntil (s : Webhooks) (id : Uuid) : Time := ((s.health id).map EndpointHealth.mutedUntil).getD 0

def muted (cfg : BreakerConfig) (s : Webhooks) (id : Uuid) : Bool :=
  (s.health id).any fun state => cfg.muteAfterFailures ≤ state.failures

def attempt (cfg : BreakerConfig) (s : Webhooks) (eventName body : String) (ep : WebhookEndpoint) : Delivery where
  endpoint := ep
  eventName := eventName
  body := body
  phase := .sending 0
  startedAt := s.clock
  skippedUntil := s.mutedUntil ep.id
  probe := s.muted cfg ep.id

def deliver (cfg : BreakerConfig) (s : Webhooks) (eventName : String) (platformId : Uuid) (body : String) : Webhooks :=
  let admitted := (WebhooksService.subscribers s.endpoints eventName platformId).filter
    fun ep => ¬ s.clock < s.mutedUntil ep.id
  { s with deliveries := s.deliveries ++ admitted.map (s.attempt cfg eventName body) }

def settle (cfg : BreakerConfig) (s : Webhooks) (i : ℕ) (ok : Bool) : Webhooks :=
  match s.deliveries[i]? with
  | none => s
  | some d =>
    match d.phase with
    | .sending tryIdx =>
      if ok then
        { s with
          health := WebhooksService.onDelivered s.health d.endpoint
          deliveries := (s.deliveries.set i { d with phase := .delivered }).map (Delivery.recover d.endpoint.id) }
      else match cfg.retryDelaysMs[tryIdx]? with
        | some delay => { s with deliveries := s.deliveries.set i { d with phase := .waiting tryIdx (s.clock + delay) } }
        | none =>
          { s with
            health := WebhooksService.onExhausted cfg s.clock s.health d.endpoint
            deliveries := s.deliveries.set i { d with phase := .exhausted } }
    | _ => s

def retry (s : Webhooks) (i : ℕ) : Webhooks :=
  match s.deliveries[i]? with
  | none => s
  | some d =>
    match d.phase with
    | .waiting tryIdx due =>
      if due ≤ s.clock then { s with deliveries := s.deliveries.set i { d with phase := .sending (tryIdx + 1) } } else s
    | _ => s

def step (cfg : BreakerConfig) (s : Webhooks) : Action → Webhooks
  | .tick d => { s with clock := s.clock + d }
  | .deliver eventName platformId body => s.deliver cfg eventName platformId body
  | .settle i ok => s.settle cfg i ok
  | .retry i => s.retry i

def probes (s : Webhooks) (id : Uuid) : ℕ := s.deliveries.countP (Delivery.probing id)

def OneProbe (s : Webhooks) : Prop := ∀ id, s.probes id ≤ 1

/-- What holds without any condition: no delivery starts inside a mute, and an endpoint stays muted
while its probe is out, so that whatever starts meanwhile is a second probe. -/
structure Skips (cfg : BreakerConfig) (s : Webhooks) : Prop where
  noneEarly : ∀ d ∈ s.deliveries, d.skippedUntil ≤ d.startedAt
  muted : ∀ d ∈ s.deliveries, d.probe = true → s.muted cfg d.endpoint.id = true

def ProbesAndHeals (cfg : BreakerConfig) (s : Webhooks) : Action → Prop
  | .deliver eventName platformId body => ∀ ep ∈ WebhooksService.subscribers s.endpoints eventName platformId,
      s.muted cfg ep.id = true → ¬ s.clock < s.mutedUntil ep.id → s.probes ep.id = 0 →
        (s.deliver cfg eventName platformId body).probes ep.id = 1
  | .settle i true => ∀ d ∈ s.deliveries[i]?, ∀ tryIdx, d.phase = .sending tryIdx →
      (s.settle cfg i true).health d.endpoint.id = none
  | _ => True

/-- No event comes to an endpoint whose mute has lapsed while its probe is still out. -/
def AwaitsProbe (cfg : BreakerConfig) (s : Webhooks) : Action → Prop
  | .deliver eventName platformId _ => ∀ ep ∈ WebhooksService.subscribers s.endpoints eventName platformId,
      s.muted cfg ep.id = true → ¬ s.clock < s.mutedUntil ep.id → s.probes ep.id = 0
  | _ => True

variable {cfg : BreakerConfig} {s : Webhooks}

theorem countP_set_le {α : Type} {p : α → Bool} {l : List α} {i : ℕ} {a d : α} (h : l[i]? = some d)
    (hle : p a = true → p d = true) : (l.set i a).countP p ≤ l.countP p := by
  obtain ⟨hi, rfl⟩ := List.getElem?_eq_some_iff.mp h
  rw [List.countP_set hi]
  by_cases ha : p a = true
  · rw [if_pos (hle ha), if_pos ha]
    have hpos : 0 < l.countP p := List.countP_pos_iff.mpr ⟨_, List.getElem_mem hi, hle ha⟩
    omega
  · rw [if_neg ha]
    omega

theorem probing_recover (id id' : Uuid) (d : Delivery) (h : (d.recover id').probing id = true) : d.probing id = true := by
  unfold Delivery.recover at h
  split at h
  · simp [Delivery.probing] at h
  · exact h

theorem probes_settle_le (i : ℕ) (ok : Bool) (id : Uuid) : (s.settle cfg i ok).probes id ≤ s.probes id := by
  unfold settle
  split
  · exact le_refl _
  · rename_i d hd
    split
    · split
      · simp only [probes, List.countP_map]
        apply (List.countP_mono_left fun x _ hx => probing_recover id d.endpoint.id x hx).trans
        exact countP_set_le hd fun h => by simp [Delivery.probing, DeliveryPhase.finished] at h
      · rename_i hphase _
        split
        · exact countP_set_le hd fun h => by simpa [Delivery.probing, DeliveryPhase.finished, hphase] using h
        · exact countP_set_le hd fun h => by simp [Delivery.probing, DeliveryPhase.finished] at h
    · exact le_refl _

theorem probes_retry_le (i : ℕ) (id : Uuid) : (s.retry i).probes id ≤ s.probes id := by
  unfold retry
  split
  · exact le_refl _
  · rename_i d hd
    split
    · rename_i hphase
      split
      · exact countP_set_le hd fun h => by simpa [Delivery.probing, DeliveryPhase.finished, hphase] using h
      · exact le_refl _
    · exact le_refl _

theorem subscribers_nodup (endpoints : Table WebhookEndpoint.id) (eventName : String) (platformId : Uuid) :
    ((WebhooksService.subscribers endpoints eventName platformId).map WebhookEndpoint.id).Nodup :=
  endpoints.nodup.sublist ((List.filter_sublist.trans List.filter_sublist).map _)

theorem countP_id_le_one {eps : List WebhookEndpoint} (h : (eps.map WebhookEndpoint.id).Nodup) (id : Uuid)
    (b : WebhookEndpoint → Bool) : eps.countP (fun ep => ep.id = id && b ep) ≤ 1 := by
  have hcount := List.nodup_iff_count_le_one.mp h id
  rw [List.count_eq_countP, List.countP_map] at hcount
  refine (List.countP_mono_left fun ep _ hep => ?_).trans hcount
  simpa using (Bool.and_eq_true _ _ |>.mp hep).1

theorem probing_attempt (eventName body : String) (ep : WebhookEndpoint) (id : Uuid) :
    (s.attempt cfg eventName body ep).probing id = (ep.id = id && s.muted cfg ep.id) := Bool.and_true _

theorem probes_deliver (eventName : String) (platformId : Uuid) (body : String) (id : Uuid) :
    (s.deliver cfg eventName platformId body).probes id = s.probes id +
      ((WebhooksService.subscribers s.endpoints eventName platformId).filter fun ep =>
        ¬ s.clock < s.mutedUntil ep.id).countP fun ep => ep.id = id && s.muted cfg ep.id := by
  simp only [probes, deliver, List.countP_append, List.countP_map]
  congr 2
  funext ep
  exact probing_attempt eventName body ep id

theorem admitted_le_one (cfg : BreakerConfig) (s : Webhooks) (eventName : String) (platformId : Uuid) (id : Uuid) :
    ((WebhooksService.subscribers s.endpoints eventName platformId).filter fun ep =>
      ¬ s.clock < s.mutedUntil ep.id).countP (fun ep => ep.id = id && s.muted cfg ep.id) ≤ 1 :=
  countP_id_le_one ((subscribers_nodup _ _ _).sublist (List.filter_sublist.map _)) id _

theorem admitted_pos {eventName : String} {platformId : Uuid} {ep : WebhookEndpoint}
    (hep : ep ∈ WebhooksService.subscribers s.endpoints eventName platformId) (hmuted : s.muted cfg ep.id = true)
    (hlapsed : ¬ s.clock < s.mutedUntil ep.id) :
    0 < ((WebhooksService.subscribers s.endpoints eventName platformId).filter fun ep =>
      ¬ s.clock < s.mutedUntil ep.id).countP fun e => e.id = ep.id && s.muted cfg e.id := by
  apply List.countP_pos_iff.mpr
  exact ⟨ep, List.mem_filter.mpr ⟨hep, decide_eq_true hlapsed⟩, by simp [hmuted]⟩

theorem oneProbe_deliver_iff (eventName : String) (platformId : Uuid) (body : String) (h : OneProbe s) :
    OneProbe (s.deliver cfg eventName platformId body) ↔ AwaitsProbe cfg s (.deliver eventName platformId body) := by
  constructor
  · intro hafter ep hep hmuted hlapsed
    have hle := hafter ep.id
    rw [probes_deliver] at hle
    have hpos := admitted_pos hep hmuted hlapsed
    omega
  · intro hawaits id
    rw [probes_deliver]
    have hle := admitted_le_one cfg s eventName platformId id
    rcases Nat.eq_zero_or_pos (((WebhooksService.subscribers s.endpoints eventName platformId).filter fun ep =>
      ¬ s.clock < s.mutedUntil ep.id).countP fun ep => ep.id = id && s.muted cfg ep.id) with hzero | hpos
    · rw [hzero]
      exact h id
    · obtain ⟨ep, hep, hmatch⟩ := List.countP_pos_iff.mp hpos
      obtain ⟨hsubscribed, hlapsed⟩ := List.mem_filter.mp hep
      simp only [Bool.and_eq_true, decide_eq_true_eq] at hmatch hlapsed
      obtain ⟨rfl, hmuted⟩ := hmatch
      have hnone := hawaits ep hsubscribed hmuted hlapsed
      omega

theorem muted_onExhausted {id : Uuid} (ep : WebhookEndpoint) (h : s.muted cfg id = true) (deliveries : List Delivery) :
    muted cfg { s with health := WebhooksService.onExhausted cfg s.clock s.health ep, deliveries } id = true := by
  simp only [muted, WebhooksService.onExhausted] at h ⊢
  by_cases hid : id = ep.id
  · subst hid
    rw [Function.update_self]
    obtain ⟨state, hstate, hfailures⟩ := Option.any_eq_true _ _ |>.mp h
    simp only [hstate, Option.getD_some, Option.any_some, decide_eq_true_eq] at hfailures ⊢
    omega
  · rw [Function.update_of_ne hid]
    exact h

theorem Skips.set {i : ℕ} {d : Delivery} (h : Skips cfg s) (hd : s.deliveries[i]? = some d) (phase : DeliveryPhase) :
    Skips cfg { s with deliveries := s.deliveries.set i { d with phase } } := by
  have hmem := List.mem_of_getElem? hd
  constructor
  · intro e he
    rcases List.mem_or_eq_of_mem_set he with hold | rfl
    · exact h.noneEarly e hold
    · exact h.noneEarly d hmem
  · intro e he hprobe
    rcases List.mem_or_eq_of_mem_set he with hold | rfl
    · exact h.muted e hold hprobe
    · exact h.muted d hmem hprobe

theorem Skips.recover (h : Skips cfg s) (ep : WebhookEndpoint) :
    Skips cfg { s with
      health := WebhooksService.onDelivered s.health ep
      deliveries := s.deliveries.map (Delivery.recover ep.id) } := by
  constructor
  · intro e he
    obtain ⟨d, hd, rfl⟩ := List.mem_map.mp he
    unfold Delivery.recover
    split <;> exact h.noneEarly d hd
  · intro e he hprobe
    obtain ⟨d, hd, rfl⟩ := List.mem_map.mp he
    unfold Delivery.recover at hprobe ⊢
    split at hprobe
    · cases hprobe
    · rename_i hother
      rw [if_neg hother]
      simp only [Webhooks.muted, WebhooksService.onDelivered, Function.update_of_ne hother]
      exact h.muted d hd hprobe

theorem step_skips (a : Action) (h : Skips cfg s) : Skips cfg (step cfg s a) := by
  cases a with
  | tick d => exact ⟨h.noneEarly, h.muted⟩
  | deliver eventName platformId body =>
    constructor
    · intro d hd
      rcases List.mem_append.mp hd with hold | hnew
      · exact h.noneEarly d hold
      · obtain ⟨ep, hep, rfl⟩ := List.mem_map.mp hnew
        exact Nat.le_of_not_lt (of_decide_eq_true (List.mem_filter.mp hep).2)
    · intro d hd hprobe
      rcases List.mem_append.mp hd with hold | hnew
      · exact h.muted d hold hprobe
      · obtain ⟨ep, _, rfl⟩ := List.mem_map.mp hnew
        exact hprobe
  | settle i ok =>
    simp only [step, settle]
    split
    · exact h
    · rename_i d hd
      split
      · split
        · exact (h.set hd .delivered).recover d.endpoint
        · split
          · exact h.set hd _
          · have hset := h.set hd .exhausted
            exact ⟨hset.noneEarly, fun e he hprobe => muted_onExhausted d.endpoint (hset.muted e he hprobe) _⟩
      · exact h
  | retry i =>
    simp only [step, retry]
    split
    · exact h
    · rename_i d hd
      split
      · split
        · exact h.set hd _
        · exact h
      · exact h

theorem probesAndHeals (a : Action) : ProbesAndHeals cfg s a := by
  cases a with
  | deliver eventName platformId body =>
    intro ep hep hmuted hlapsed hnone
    rw [probes_deliver, hnone]
    have hpos := admitted_pos hep hmuted hlapsed
    have hle := admitted_le_one cfg s eventName platformId ep.id
    omega
  | settle i ok =>
    cases ok with
    | false => trivial
    | true =>
      intro d hd tryIdx hphase
      simp only [settle, Option.mem_def.mp hd, hphase, if_true]
      exact Function.update_self ..
  | tick d => trivial
  | retry i => trivial

theorem step_oneProbe_iff (a : Action) (h : OneProbe s) : OneProbe (step cfg s a) ↔ AwaitsProbe cfg s a := by
  cases a with
  | tick d => exact iff_of_true h trivial
  | deliver eventName platformId body => exact oneProbe_deliver_iff eventName platformId body h
  | settle i ok => exact iff_of_true (fun id => (probes_settle_le i ok id).trans (h id)) trivial
  | retry i => exact iff_of_true (fun id => (probes_retry_le i id).trans (h id)) trivial

/-- A mute is kept, a lapsed one is probed and a success ends it; the probe is alone exactly when no
event comes in before it is through. -/
theorem breaker_iff_awaitsProbe (cfg : BreakerConfig) (endpoints : Table WebhookEndpoint.id) (clock : Time)
    (as : List Action) :
    Always (step cfg) (fun s => OneProbe s ∧ Skips cfg s) (start endpoints clock) as ∧
        EveryStep (step cfg) (ProbesAndHeals cfg) (start endpoints clock) as ↔
      EveryStep (step cfg) (AwaitsProbe cfg) (start endpoints clock) as := by
  have hstart : Skips cfg (start endpoints clock) := by
    constructor
    · intro d hd
      cases hd
    · intro d hd
      cases hd
  have hskips : Always (step cfg) (Skips cfg) (start endpoints clock) as :=
    always_of_step (fun _ a h => step_skips a h) hstart as
  have hone : Always (step cfg) OneProbe (start endpoints clock) as ↔
      EveryStep (step cfg) (AwaitsProbe cfg) (start endpoints clock) as :=
    always_iff_everyStep (I := fun _ => True) (fun _ _ h => h) (fun _ a _ h => step_oneProbe_iff a h) trivial
      (fun _ => Nat.zero_le _) as
  rw [← hone]
  constructor
  · rintro ⟨h, _⟩
    exact h.mono fun _ hboth => hboth.1
  · intro h
    exact ⟨h.and hskips, everyStep_iff_initial.mpr fun _ a _ => probesAndHeals a⟩

end Webhooks

namespace Sample

def hook : WebhookEndpoint := ⟨"hook", none, "https://hooks.example", "secret", [], true⟩

end Sample

namespace Webhooks

def exhaust (i : ℕ) : List Action :=
  [.deliver "issue.created" "cbs" "-", .settle i false, .tick 2000, .retry i, .settle i false, .tick 8000, .retry i,
    .settle i false, .tick 30000, .retry i, .settle i false]

def twoEventsAfterCooldown : List Action :=
  exhaust 0 ++ exhaust 1 ++ exhaust 2
    ++ [.tick 300000, .deliver "issue.created" "cbs" "-", .deliver "issue.created" "cbs" "-"]

theorem second_probe_starts :
    ¬ ∀ (cfg : BreakerConfig) (endpoints : Table WebhookEndpoint.id) (clock : Time) (as : List Action),
      Always (step cfg) (fun s => OneProbe s ∧ Skips cfg s) (start endpoints clock) as ∧
        EveryStep (step cfg) (ProbesAndHeals cfg) (start endpoints clock) as := by
  intro h
  have hfinal := (h {} ⟨[Sample.hook], by decide⟩ 0 twoEventsAfterCooldown).1.final
  have hone := hfinal.1 "hook"
  revert hone
  decide

end Webhooks

end Cimp
