import Cimp.Common
import Cimp.Lib.Execution
import Cimp.Lib.Tally
import Mathlib.Algebra.Group.Nat.Defs
import Mathlib.Data.List.Nodup
import Mathlib.Data.List.Perm.Subperm

namespace Cimp

open Execution Tally

namespace RealtimeService

def maxStreamsPerStaff : ℕ := 6

/-- `openStreams`, a `Map`. -/
abbrev OpenStreams := Uuid → Option ℕ

def openStreamCount (openStreams : OpenStreams) (staffId : Uuid) : ℕ := (openStreams staffId).getD 0

/-- `none` where it answers false. -/
def acquireStream (openStreams : OpenStreams) (staffId : Uuid) : Option OpenStreams :=
  let held := (openStreams staffId).getD 0
  if maxStreamsPerStaff ≤ held then none else some (Function.update openStreams staffId (some (held + 1)))

def releaseStream (openStreams : OpenStreams) (staffId : Uuid) : OpenStreams :=
  let held := (openStreams staffId).getD 0 - 1
  if 0 < held then Function.update openStreams staffId (some held) else Function.update openStreams staffId none

variable {held : List Uuid} {staffId : Uuid}

theorem acquireStream_tally (held : List Uuid) (staffId : Uuid) : acquireStream (tally held) staffId =
    if maxStreamsPerStaff ≤ held.count staffId then none else some (tally (staffId :: held)) := by
  rw [acquireStream, tally_getD, update_tally_acquire]

theorem releaseStream_tally (held : List Uuid) (staffId : Uuid) :
    releaseStream (tally held) staffId = tally (held.erase staffId) := by
  rw [releaseStream, tally_getD, ← update_tally_release]
  exact (apply_ite (Function.update (tally held) staffId) _ _ _).symm

end RealtimeService

/-- An `EventSource`, and whose ticket it was made with. -/
structure EventSource where
  id : ℕ
  staffId : Uuid
deriving DecidableEq, Repr

structure RetryTimer where
  id : ℕ
  delay : ℕ
deriving DecidableEq, Repr

/-- What one run of the effect of `useStaffRealtime` holds: the tickets it awaits, the timers that have not
fired and the sources it has not closed. `failures` counts the reconnects since a source last opened. -/
structure RealtimeHook where
  stopped : Bool := false
  fetching : List Uuid := []
  timers : List RetryTimer := []
  retry : Option ℕ := none
  sources : List EventSource := []
  es : Option EventSource := none
  backoff : ℕ := 3000
  failures : ℕ := 0
deriving DecidableEq, Repr

inductive TicketAnswer
  | ticket
  | unauthorized
  | refused
  | threw
deriving DecidableEq, Repr

namespace RealtimeHook

/-- `token` is whose session token is stored, if there is one. -/
def connect (h : RealtimeHook) (token : Option Uuid) : RealtimeHook :=
  if h.stopped then h
  else match token with
    | none => h
    | some staffId => { h with fetching := h.fetching ++ [staffId] }

def scheduleReconnect (h : RealtimeHook) (timer : ℕ) : RealtimeHook :=
  if h.stopped then h
  else { h with
    timers := h.timers ++ [⟨timer, h.backoff⟩]
    retry := some timer
    backoff := min (h.backoff * 2) 30000
    failures := h.failures + 1 }

/-- The rest of `connect`, when the answer for `staffId` is in; a new source or timer is called `fresh`. -/
def answered (h : RealtimeHook) (staffId : Uuid) (answer : TicketAnswer) (fresh : ℕ) : RealtimeHook :=
  let h := { h with fetching := h.fetching.erase staffId }
  match answer with
  | .ticket =>
    if h.stopped then h
    else { h with sources := h.sources ++ [⟨fresh, staffId⟩], es := some ⟨fresh, staffId⟩ }
  | .unauthorized => h
  | .refused => h.scheduleReconnect fresh
  | .threw => h.scheduleReconnect fresh

def close (h : RealtimeHook) : RealtimeHook := { h with sources := h.sources.filter fun c => some c ≠ h.es }

def onopen (h : RealtimeHook) : RealtimeHook := { h with backoff := 3000, failures := 0 }

def onerror (h : RealtimeHook) (timer : ℕ) : RealtimeHook := { h.close with es := none }.scheduleReconnect timer

def fire (h : RealtimeHook) (timer : ℕ) (token : Option Uuid) : RealtimeHook :=
  { h with timers := h.timers.filter fun t => t.id ≠ timer }.connect token

def cleanup (h : RealtimeHook) : RealtimeHook :=
  let h := { h with stopped := true }
  { h with timers := h.timers.filter fun t => some t.id ≠ h.retry }.close

/-- At most one ticket, timer or source at a time, and none but a ticket after the cleanup. -/
structure Single (h : RealtimeHook) : Prop where
  one : h.fetching.length + h.timers.length + h.sources.length ≤ 1
  current : ∀ c ∈ h.sources, h.es = some c
  armed : ∀ t ∈ h.timers, h.retry = some t.id
  quiet : h.stopped = true → h.timers = [] ∧ h.sources = []
  backoff : h.backoff = min (3000 * 2 ^ h.failures) 30000
  delay : ∀ t ∈ h.timers, 0 < h.failures ∧ t.delay = min (3000 * 2 ^ (h.failures - 1)) 30000

variable {h : RealtimeHook} {staffId : Uuid}

theorem Single.initial : Single {} := by
  constructor <;> simp

theorem Single.idle (hs : Single h) {fetching : List Uuid} (hempty : h.timers = [] ∧ h.sources = [])
    (hone : fetching.length ≤ 1) : Single { h with fetching } := by
  obtain ⟨htimers, hsources⟩ := hempty
  constructor
  · simpa [htimers, hsources] using hone
  · exact hs.current
  · exact hs.armed
  · exact hs.quiet
  · exact hs.backoff
  · exact hs.delay

theorem Single.connect (hs : Single h) (token : Option Uuid)
    (hempty : h.fetching = [] ∧ h.timers = [] ∧ h.sources = []) : Single (h.connect token) := by
  unfold RealtimeHook.connect
  split
  · exact hs
  · split
    · exact hs
    · apply hs.idle hempty.2
      simp [hempty.1]

theorem doubled (n : ℕ) : min (min (3000 * 2 ^ n) 30000 * 2) 30000 = min (3000 * 2 ^ (n + 1)) 30000 := by
  have hpow : 3000 * 2 ^ (n + 1) = 3000 * 2 ^ n * 2 := by rw [Nat.pow_succ, Nat.mul_assoc]
  omega

theorem Single.scheduleReconnect (hs : Single h) (timer : ℕ)
    (hempty : h.fetching = [] ∧ h.timers = [] ∧ h.sources = []) : Single (h.scheduleReconnect timer) := by
  obtain ⟨hfetching, htimers, hsources⟩ := hempty
  unfold RealtimeHook.scheduleReconnect
  split
  · exact hs
  · rename_i hlive
    constructor
    · simp [hfetching, htimers, hsources]
    · exact hs.current
    · simp [htimers]
    · exact fun hstopped => absurd hstopped hlive
    · simp only [hs.backoff, doubled]
    · simp [htimers, hs.backoff]

theorem Single.fetching (hs : Single h) (hfetching : staffId ∈ h.fetching) :
    h.fetching.erase staffId = [] ∧ h.timers = [] ∧ h.sources = [] := by
  have hone := hs.one
  have hpos := List.length_pos_of_mem hfetching
  refine ⟨List.eq_nil_of_length_eq_zero ?_, List.eq_nil_of_length_eq_zero (by omega),
    List.eq_nil_of_length_eq_zero (by omega)⟩
  rw [List.length_erase_of_mem hfetching]
  omega

theorem Single.timer (hs : Single h) {t : RetryTimer} (ht : t ∈ h.timers) :
    h.timers = [t] ∧ h.fetching = [] ∧ h.sources = [] := by
  have hone := hs.one
  have hpos := List.length_pos_of_mem ht
  obtain ⟨u, hu⟩ := List.length_eq_one_iff.mp (show h.timers.length = 1 by omega)
  rw [hu, List.mem_singleton] at ht
  exact ⟨by rw [hu, ht], List.eq_nil_of_length_eq_zero (by omega), List.eq_nil_of_length_eq_zero (by omega)⟩

theorem Single.source (hs : Single h) {c : EventSource} (hc : c ∈ h.sources) :
    h.sources = [c] ∧ h.fetching = [] ∧ h.timers = [] := by
  have hone := hs.one
  have hpos := List.length_pos_of_mem hc
  obtain ⟨d, hd⟩ := List.length_eq_one_iff.mp (show h.sources.length = 1 by omega)
  rw [hd, List.mem_singleton] at hc
  exact ⟨by rw [hd, hc], List.eq_nil_of_length_eq_zero (by omega), List.eq_nil_of_length_eq_zero (by omega)⟩

theorem Single.close (hs : Single h) : h.close.sources = [] := by
  apply List.filter_eq_nil_iff.mpr
  intro c hc
  simp [hs.current c hc]

theorem Single.answered (hs : Single h) (hfetching : staffId ∈ h.fetching) (answer : TicketAnswer) (fresh : ℕ) :
    Single (h.answered staffId answer fresh) := by
  obtain ⟨herased, hempty⟩ := hs.fetching hfetching
  have hidle : Single { h with fetching := h.fetching.erase staffId } := hs.idle hempty (by simp [herased])
  cases answer with
  | ticket =>
    simp only [RealtimeHook.answered]
    split
    · exact hidle
    · rename_i hlive
      constructor
      · simp [herased, hempty.1, hempty.2]
      · simp [hempty.2]
      · exact hs.armed
      · exact fun hstopped => absurd hstopped hlive
      · exact hs.backoff
      · exact hs.delay
  | unauthorized => exact hidle
  | refused => exact hidle.scheduleReconnect fresh ⟨herased, hempty⟩
  | threw => exact hidle.scheduleReconnect fresh ⟨herased, hempty⟩

theorem Single.onopen (hs : Single h) {c : EventSource} (hc : c ∈ h.sources) : Single h.onopen := by
  have htimers := (hs.source hc).2.2
  constructor
  · exact hs.one
  · exact hs.current
  · exact hs.armed
  · exact hs.quiet
  · rfl
  · intro t ht
    rw [show h.onopen.timers = [] from htimers] at ht
    cases ht

theorem Single.onerror (hs : Single h) {c : EventSource} (hc : c ∈ h.sources) (timer : ℕ) :
    Single (h.onerror timer) := by
  obtain ⟨-, hfetching, htimers⟩ := hs.source hc
  have hclosed : Single { h.close with es := none } := by
    constructor
    · simp [hs.close, show h.close.fetching = [] from hfetching, show h.close.timers = [] from htimers]
    · simp [hs.close]
    · exact hs.armed
    · exact fun hstopped => ⟨(hs.quiet hstopped).1, hs.close⟩
    · exact hs.backoff
    · exact hs.delay
  exact hclosed.scheduleReconnect timer ⟨hfetching, htimers, hs.close⟩

theorem Single.fire (hs : Single h) {t : RetryTimer} (ht : t ∈ h.timers) (token : Option Uuid) :
    Single (h.fire t.id token) := by
  obtain ⟨htimers, hfetching, hsources⟩ := hs.timer ht
  have hfired : h.timers.filter (fun u => u.id ≠ t.id) = [] := by simp [htimers]
  refine Single.connect (h := { h with timers := h.timers.filter fun u => u.id ≠ t.id }) ?_ token
    ⟨hfetching, hfired, hsources⟩
  constructor
  · simp [htimers, hfetching, hsources]
  · exact hs.current
  · simp [htimers]
  · exact fun hstopped => ⟨hfired, (hs.quiet hstopped).2⟩
  · exact hs.backoff
  · simp [htimers]

theorem Single.cleanup (hs : Single h) : Single h.cleanup ∧ h.cleanup.sources = [] := by
  have htimers : h.timers.filter (fun t => some t.id ≠ h.retry) = [] := by
    apply List.filter_eq_nil_iff.mpr
    intro t ht
    simp [hs.armed t ht]
  have hsources : h.cleanup.sources = [] := hs.close
  refine ⟨?_, hsources⟩
  constructor
  · have hone := hs.one
    rw [hsources, show h.cleanup.timers = [] from htimers, show h.cleanup.fetching = h.fetching from rfl]
    simp only [List.length_nil]
    omega
  · simp [hsources]
  · rw [show h.cleanup.timers = [] from htimers]
    simp
  · exact fun _ => ⟨htimers, hsources⟩
  · exact hs.backoff
  · rw [show h.cleanup.timers = [] from htimers]
    simp

end RealtimeHook

/-- The effects that ever ran in the staff's browsers, the streams the server holds, and the requests for one
that it has not handled. -/
structure Workspace where
  hooks : List RealtimeHook
  requests : List EventSource
  streams : List EventSource
  openStreams : RealtimeService.OpenStreams
  nextId : ℕ

namespace Workspace

/-- The server hears of a closed source when it does, or not at all; a stream ends for any reason. -/
inductive Action
  | mount (token : Option Uuid)
  | answered (hook : ℕ) (staffId : Uuid) (answer : TicketAnswer)
  | arrive (c : EventSource) (admitted : Bool)
  | onopen (hook : ℕ) (c : EventSource)
  | onerror (hook : ℕ) (c : EventSource)
  | fire (hook : ℕ) (t : RetryTimer) (token : Option Uuid)
  | cleanup (hook : ℕ)
  | finalize (c : EventSource)

def start : Workspace := ⟨[], [], [], fun _ => none, 0⟩

def modifyHook (s : Workspace) (i : ℕ) (f : RealtimeHook → RealtimeHook) : Workspace :=
  { s with hooks := s.hooks.modify i f, nextId := s.nextId + 1 }

def arrive (s : Workspace) (c : EventSource) (admitted : Bool) : Workspace :=
  let s := { s with requests := s.requests.erase c }
  if admitted then
    match RealtimeService.acquireStream s.openStreams c.staffId with
    | none => s
    | some openStreams => { s with streams := s.streams ++ [c], openStreams }
  else s

def holds (s : Workspace) (i : ℕ) (p : RealtimeHook → Bool) : Bool := s.hooks[i]?.any p

def step (s : Workspace) : Action → Workspace
  | .mount token => { s with hooks := s.hooks ++ [RealtimeHook.connect {} token] }
  | .answered i staffId answer =>
    if s.holds i fun h => staffId ∈ h.fetching then
      let asked := if s.holds i fun h => answer = .ticket && !h.stopped then [⟨s.nextId, staffId⟩] else []
      { s.modifyHook i fun h => h.answered staffId answer s.nextId with requests := s.requests ++ asked }
    else s
  | .arrive c admitted => if c ∈ s.requests then s.arrive c admitted else s
  | .onopen i c => if s.holds i fun h => c ∈ h.sources then s.modifyHook i RealtimeHook.onopen else s
  | .onerror i c =>
    if s.holds i fun h => c ∈ h.sources then s.modifyHook i fun h => h.onerror s.nextId else s
  | .fire i t token =>
    if s.holds i fun h => t ∈ h.timers then s.modifyHook i fun h => h.fire t.id token else s
  | .cleanup i => s.modifyHook i RealtimeHook.cleanup
  | .finalize c =>
    if c ∈ s.streams then
      { s with
        streams := s.streams.erase c
        openStreams := RealtimeService.releaseStream s.openStreams c.staffId }
    else s

/-- The streams of the account, and those of them that no browser has a source for. -/
def streamsOf (s : Workspace) (staffId : Uuid) : List EventSource := s.streams.filter fun c => c.staffId = staffId

def abandoned (s : Workspace) (staffId : Uuid) : List EventSource :=
  (s.streamsOf staffId).filter fun c => ∀ h ∈ s.hooks, c ∉ h.sources

def listening (staffId : Uuid) (h : RealtimeHook) : Bool := !h.stopped && h.sources.any fun c => c.staffId = staffId

structure Inv (s : Workspace) : Prop where
  single : ∀ h ∈ s.hooks, h.Single
  counted : s.openStreams = tally (s.streams.map EventSource.staffId)
  capped : ∀ staffId, (s.streams.map EventSource.staffId).count staffId ≤ RealtimeService.maxStreamsPerStaff
  once : ((s.requests ++ s.streams).map EventSource.id).Nodup
  fresh : ∀ c ∈ s.requests ++ s.streams, c.id < s.nextId

variable {s : Workspace} {c : EventSource} {staffId : Uuid}

theorem holds_iff {i : ℕ} {p : RealtimeHook → Bool} : s.holds i p = true ↔ ∃ h, s.hooks[i]? = some h ∧ p h = true := by
  unfold holds
  cases s.hooks[i]? <;> simp

theorem mem_modifyHook {i : ℕ} {f : RealtimeHook → RealtimeHook} {h : RealtimeHook}
    (hmem : h ∈ (s.modifyHook i f).hooks) : h ∈ s.hooks ∨ ∃ h', s.hooks[i]? = some h' ∧ h = f h' := by
  obtain ⟨j, hj⟩ := List.mem_iff_getElem?.mp hmem
  rw [modifyHook, List.getElem?_modify] at hj
  obtain ⟨h', hh', rfl⟩ := Option.map_eq_some_iff.mp hj
  by_cases hij : i = j
  · subst hij
    exact Or.inr ⟨h', hh', by simp⟩
  · rw [if_neg hij]
    exact Or.inl (List.mem_of_getElem? hh')

theorem Inv.modifyHook (hs : Inv s) {i : ℕ} {f : RealtimeHook → RealtimeHook}
    (hf : ∀ h, s.hooks[i]? = some h → (f h).Single) : Inv (s.modifyHook i f) := by
  constructor
  · intro h hmem
    obtain hold | ⟨h', hh', rfl⟩ := mem_modifyHook hmem
    · exact hs.single h hold
    · exact hf h' hh'
  · exact hs.counted
  · exact hs.capped
  · exact hs.once
  · exact fun c hc => Nat.lt_succ_of_lt (hs.fresh c hc)

theorem Inv.request (hs : Inv s) {c : EventSource} (hc : c.id = s.nextId) {s' : Workspace}
    (hs' : Inv s') (hrequests : s'.requests = s.requests) (hstreams : s'.streams = s.streams)
    (hnext : s'.nextId = s.nextId + 1) : Inv { s' with requests := s'.requests ++ [c] } := by
  have hperm : (s'.requests ++ [c] ++ s'.streams).Perm (c :: (s.requests ++ s.streams)) := by
    rw [hrequests, hstreams, List.append_assoc]
    exact List.perm_middle
  constructor
  · exact hs'.single
  · exact hs'.counted
  · exact hs'.capped
  · rw [(hperm.map _).nodup_iff, List.map_cons, List.nodup_cons]
    refine ⟨?_, hs.once⟩
    intro hmem
    obtain ⟨d, hd, hid⟩ := List.mem_map.mp hmem
    have hlt := hs.fresh d hd
    omega
  · intro d hd
    rw [hperm.mem_iff, List.mem_cons] at hd
    rw [hnext]
    rcases hd with rfl | hd
    · omega
    · exact Nat.lt_succ_of_lt (hs.fresh d hd)

theorem Inv.drop (hs : Inv s) (c : EventSource) : Inv { s with requests := s.requests.erase c } := by
  have hsub : (s.requests.erase c ++ s.streams).Sublist (s.requests ++ s.streams) :=
    List.erase_sublist.append_right _
  exact ⟨hs.single, hs.counted, hs.capped, hs.once.sublist (hsub.map _), fun d hd => hs.fresh d (hsub.subset hd)⟩

theorem Inv.acquire (hs : Inv s) (hc : c ∈ s.requests)
    (hroom : (s.streams.map EventSource.staffId).count c.staffId < RealtimeService.maxStreamsPerStaff) :
    Inv { s with
      requests := s.requests.erase c
      streams := s.streams ++ [c]
      openStreams := tally (c.staffId :: s.streams.map EventSource.staffId) } := by
  have hstaff : (s.streams ++ [c]).map EventSource.staffId = s.streams.map EventSource.staffId ++ [c.staffId] :=
    List.map_append
  have hperm : (s.requests.erase c ++ (s.streams ++ [c])).Perm (s.requests ++ s.streams) := by
    calc (s.requests.erase c ++ (s.streams ++ [c])).Perm (s.requests.erase c ++ ([c] ++ s.streams)) :=
          List.perm_append_comm.append_left _
      _ |>.Perm ((c :: s.requests.erase c) ++ s.streams) := List.perm_middle
      _ |>.Perm (s.requests ++ s.streams) := (List.perm_cons_erase hc).symm.append_right _
  constructor
  · exact hs.single
  · rw [hstaff]
    exact tally_congr fun k => (List.perm_append_singleton _ _).symm.count_eq k
  · intro staffId
    rw [hstaff, List.count_append, List.count_singleton]
    have hcap := hs.capped staffId
    split
    · rename_i hsame
      rw [beq_iff_eq] at hsame
      rw [← hsame]
      omega
    · omega
  · exact (hperm.map _).nodup_iff.mpr hs.once
  · exact fun d hd => hs.fresh d (hperm.mem_iff.mp hd)

theorem Inv.arrive (hs : Inv s) (hc : c ∈ s.requests) (admitted : Bool) : Inv (s.arrive c admitted) := by
  unfold Workspace.arrive
  split
  · simp only [hs.counted, RealtimeService.acquireStream_tally]
    by_cases hfull : RealtimeService.maxStreamsPerStaff ≤ (s.streams.map EventSource.staffId).count c.staffId
    · rw [if_pos hfull]
      exact hs.counted ▸ hs.drop c
    · rw [if_neg hfull]
      exact hs.acquire hc (Nat.lt_of_not_le hfull)
  · exact hs.drop c

theorem Inv.finalize (hs : Inv s) (hc : c ∈ s.streams) :
    Inv { s with
      streams := s.streams.erase c
      openStreams := RealtimeService.releaseStream s.openStreams c.staffId } := by
  have hsub : (s.requests ++ s.streams.erase c).Sublist (s.requests ++ s.streams) :=
    List.erase_sublist.append_left _
  have hperm : (s.streams.map EventSource.staffId).Perm (c.staffId :: (s.streams.erase c).map EventSource.staffId) :=
    (List.perm_cons_erase hc).map _
  constructor
  · exact hs.single
  · show RealtimeService.releaseStream s.openStreams c.staffId = _
    rw [hs.counted, RealtimeService.releaseStream_tally]
    apply tally_congr
    intro k
    rw [(hperm.erase c.staffId).count_eq k, List.erase_cons_head]
  · intro staffId
    exact Nat.le_trans ((List.erase_sublist.map _).count_le staffId) (hs.capped staffId)
  · exact hs.once.sublist (hsub.map _)
  · exact fun d hd => hs.fresh d (hsub.subset hd)

theorem holds_single (hs : Inv s) {i : ℕ} {p : RealtimeHook → Bool} (h : s.holds i p = true) :
    ∀ h', s.hooks[i]? = some h' → h'.Single ∧ p h' = true := by
  intro h' hh'
  obtain ⟨g, hg, hp⟩ := holds_iff.mp h
  rw [hh'] at hg
  cases hg
  exact ⟨hs.single h' (List.mem_of_getElem? hh'), hp⟩

theorem step_inv (s : Workspace) (a : Action) (hs : Inv s) : Inv (step s a) := by
  cases a with
  | mount token =>
    refine ⟨?_, hs.counted, hs.capped, hs.once, hs.fresh⟩
    intro h hmem
    simp only [step, List.mem_append, List.mem_singleton] at hmem
    obtain hold | rfl := hmem
    · exact hs.single h hold
    · exact RealtimeHook.Single.initial.connect token ⟨rfl, rfl, rfl⟩
  | answered i staffId answer =>
    simp only [step]
    split
    · rename_i hholds
      have hhook := hs.modifyHook (f := fun h => h.answered staffId answer s.nextId) fun h hh => by
        obtain ⟨hsingle, hmem⟩ := holds_single hs hholds h hh
        exact hsingle.answered (of_decide_eq_true hmem) answer s.nextId
      split
      · exact hs.request rfl hhook rfl rfl rfl
      · rw [List.append_nil]
        exact hhook
    · exact hs
  | arrive c admitted =>
    simp only [step]
    split
    · exact hs.arrive ‹_› admitted
    · exact hs
  | onopen i c =>
    simp only [step]
    split
    · rename_i hholds
      apply hs.modifyHook
      intro h hh
      obtain ⟨hsingle, hmem⟩ := holds_single hs hholds h hh
      exact hsingle.onopen (of_decide_eq_true hmem)
    · exact hs
  | onerror i c =>
    simp only [step]
    split
    · rename_i hholds
      apply hs.modifyHook
      intro h hh
      obtain ⟨hsingle, hmem⟩ := holds_single hs hholds h hh
      exact hsingle.onerror (of_decide_eq_true hmem) s.nextId
    · exact hs
  | fire i t token =>
    simp only [step]
    split
    · rename_i hholds
      apply hs.modifyHook
      intro h hh
      obtain ⟨hsingle, hmem⟩ := holds_single hs hholds h hh
      exact hsingle.fire (of_decide_eq_true hmem) token
    · exact hs
  | cleanup i =>
    apply hs.modifyHook
    intro h hh
    exact (hs.single h (List.mem_of_getElem? hh)).cleanup.1
  | finalize c =>
    simp only [step]
    split
    · exact hs.finalize ‹_›
    · exact hs

theorem start_inv : Inv start := by
  constructor
  · intro h hmem
    cases hmem
  · rfl
  · exact fun _ => Nat.zero_le _
  · exact List.nodup_nil
  · intro c hc
    cases hc

theorem sources_le (hooks : List RealtimeHook) (hsingle : ∀ h ∈ hooks, h.Single) (staffId : Uuid) :
    ((hooks.flatMap RealtimeHook.sources).filter fun c => c.staffId = staffId).length ≤ hooks.countP (listening staffId) := by
  induction hooks with
  | nil => simp
  | cons h hooks ih =>
    have hrest := ih fun g hg => hsingle g (List.mem_cons_of_mem _ hg)
    have hone := hsingle h List.mem_cons_self
    rw [List.flatMap_cons, List.filter_append, List.length_append, List.countP_cons]
    have hhead : (h.sources.filter fun c => c.staffId = staffId).length ≤ if listening staffId h = true then 1 else 0 := by
      by_cases hnone : h.sources.filter (fun c => c.staffId = staffId) = []
      · rw [hnone]
        exact Nat.zero_le _
      · obtain ⟨c, hc⟩ := List.exists_mem_of_ne_nil _ hnone
        obtain ⟨hmem, hstaff⟩ := List.mem_filter.mp hc
        have hlive : h.stopped = false := by
          by_contra hstopped
          rw [(hone.quiet (by simpa using hstopped)).2] at hmem
          cases hmem
        have hlistening : listening staffId h = true := by
          simp only [listening, hlive, Bool.not_false, Bool.true_and, List.any_eq_true]
          exact ⟨c, hmem, hstaff⟩
        rw [if_pos hlistening, (hone.source hmem).1]
        exact List.length_filter_le _ _
    omega

theorem streamsOf_length (s : Workspace) (staffId : Uuid) :
    (s.streamsOf staffId).length = (s.streams.map EventSource.staffId).count staffId := by
  rw [streamsOf, ← List.countP_eq_length_filter, List.count, List.countP_map]
  apply List.countP_congr
  intro c _
  simp

theorem streamsOf_le (hs : Inv s) (staffId : Uuid) :
    (s.streamsOf staffId).length ≤ s.hooks.countP (listening staffId) + (s.abandoned staffId).length := by
  have hsplit := List.length_eq_length_filter_add (l := s.streamsOf staffId) fun c => ∀ h ∈ s.hooks, c ∉ h.sources
  have hstreams : s.streams.Nodup := 
    List.Nodup.of_map _ (hs.once.sublist ((List.sublist_append_right _ _).map _))
  have hkept : ((s.streamsOf staffId).filter fun c => !decide (∀ h ∈ s.hooks, c ∉ h.sources)).length ≤
      ((s.hooks.flatMap RealtimeHook.sources).filter fun c => c.staffId = staffId).length := by
    apply List.Subperm.length_le
    apply List.subperm_of_subset ((hstreams.filter _).filter _)
    intro c hc
    simp only [List.mem_filter, Bool.not_eq_true', decide_eq_false_iff_not, not_forall, not_not] at hc
    obtain ⟨hstream, h, hmem, hsource⟩ := hc
    exact List.mem_filter.mpr ⟨List.mem_flatMap.mpr ⟨h, hmem, hsource⟩, hstream.2⟩
  have hle := sources_le s.hooks hs.single staffId
  simp only [abandoned]
  omega

/-- What the map of the open streams says of an account. -/
structure Accounted (s : Workspace) (staffId : Uuid) : Prop where
  counted : RealtimeService.openStreamCount s.openStreams staffId = (s.streamsOf staffId).length
  capped : (s.streamsOf staffId).length ≤ RealtimeService.maxStreamsPerStaff
  entry : s.openStreams staffId = none ↔ s.streamsOf staffId = []
  refused : RealtimeService.acquireStream s.openStreams staffId = none ↔
    (s.streamsOf staffId).length = RealtimeService.maxStreamsPerStaff
  listeners : (s.streamsOf staffId).length ≤ s.hooks.countP (listening staffId) + (s.abandoned staffId).length

theorem Inv.accounted (hs : Inv s) (staffId : Uuid) : Accounted s staffId := by
  have hcap := hs.capped staffId
  rw [← streamsOf_length] at hcap
  constructor
  · rw [hs.counted, RealtimeService.openStreamCount, tally_getD, streamsOf_length]
  · exact hcap
  · rw [hs.counted, tally_eq_none, ← List.length_eq_zero_iff, streamsOf_length, List.count_eq_zero]
  · rw [hs.counted, RealtimeService.acquireStream_tally, ← streamsOf_length]
    split
    · exact iff_of_true rfl (by omega)
    · exact iff_of_false (by simp) (by omega)
  · exact streamsOf_le hs staffId

/-- Whoever connects and however a stream ends, no effect of a browser holds two things at once. -/
theorem always_single (as : List Action) : Always step (fun s => ∀ h ∈ s.hooks, h.Single) start as :=
  (always_of_step step_inv start_inv as).mono fun _ hs => hs.single

theorem always_accounted (as : List Action) : Always step (fun s => ∀ staffId, s.Accounted staffId) start as :=
  (always_of_step step_inv start_inv as).mono fun _ hs => hs.accounted

end Workspace

end Cimp
