import Mathlib.Data.List.Chain
import Mathlib.Data.Rat.Floor
import RaveDeployment.Lib.Pacing
import RaveDeployment.Web.Refresh

/-!
# One poll at a time, and nothing stale

At every moment exactly one timer keeps the polls going: the one of the next poll, or the one that
aborts the requests of the poll under way. Beside it there is only the timer at which what is shown
becomes stale, and it is pending exactly while the answers to a poll are shown (`Good`).

`display_of_run`: the elements show one poll or none of it, and the timer that takes it away is set.
`age_of_run`, `calls_of_run`: how old what is shown can be, and how often the page polls.
-/

namespace Rave

namespace Web

namespace Tab

variable {s w : Tab} {loop fresh : Option (Timer ℚ Callback)} {html : Dom} {formats : Formats}

/-- The pending timers are the two that the page knows of. -/
structure Timed (s : Tab) (loop fresh : Option (Timer ℚ Callback)) : Prop where
  pending : ∀ t, t ∈ s.timers.pending ↔ loop = some t ∨ fresh = some t
  stale : s.staleTimer = fresh.map Timer.id
  generation : ∀ t, fresh = some t → t.callback = .stale s.freshnessGeneration
  loop_ne : ∀ t, loop = some t → ∀ g, t.callback ≠ .stale g
  poll_ne : ∀ t, fresh = some t → s.pollTimer ≠ some t.id
  poll_lt : ∀ id, s.pollTimer = some id → id < s.timers.next

/-- What is in the elements, and the timer that takes it away. -/
structure Displayed (html : Dom) (formats : Formats) (s : Tab)
    (fresh : Option (Timer ℚ Callback)) : Prop where
  dom : s.dom = html.apply (s.shown.writes formats)
  due : ∀ a started rendered, s.shown = .polled a started rendered →
    ∃ t, fresh = some t ∧ t.due = rendered + a.status.val.validForMs
  none : ∀ reason availability, s.shown = .invalid reason availability → fresh = none

theorem Timed.mem_loop {t : Timer ℚ Callback} (h : s.Timed (some t) fresh) :
    t ∈ s.timers.pending :=
  (h.pending t).mpr (.inl rfl)

theorem Timed.mem_fresh {t : Timer ℚ Callback} (h : s.Timed loop (some t)) :
    t ∈ s.timers.pending :=
  (h.pending t).mpr (.inr rfl)

/-- The two timers are not the same one. -/
theorem Timed.ne {t u : Timer ℚ Callback} (h : s.Timed (some t) (some u)) : t.id ≠ u.id := by
  intro heq
  have hsame : t = u := Timers.eq_of_id_eq h.mem_loop h.mem_fresh heq
  exact h.loop_ne t rfl _ (hsame ▸ h.generation u rfl)

/-! ## The timers

The page knows the timers that are pending: that of its loop, and that of what is shown. -/

/-- Invalidating the page clears the timer of what was shown. -/
theorem Timed.invalidateDynamic (h : s.Timed loop fresh) (reason : String)
    (availability : Availability) :
    (s.invalidateDynamic reason availability).Timed loop none where
  pending := by
    -- only the timer of the old freshness is cleared, and that is not the loop's
    intro t
    show t ∈ (s.timers.clear? s.staleTimer).pending ↔ _
    rw [Timers.mem_clear?, h.pending, h.stale]
    constructor
    · intro hmem
      rcases hmem.1 with hloop | hfresh
      · exact .inl hloop
      · exact absurd (by rw [hfresh]; rfl) hmem.2
    · intro hmem
      have hloop : loop = some t := by simpa using hmem
      refine ⟨.inl hloop, ?_⟩
      intro hkept
      obtain ⟨u, hu, hid⟩ := Option.map_eq_some_iff.mp hkept
      subst hloop hu
      exact h.ne hid.symm
  stale := rfl
  generation := fun t ht => by cases ht
  loop_ne := h.loop_ne
  poll_ne := fun t ht => by cases ht
  poll_lt := by
    intro id hid
    show id < (s.timers.clear? s.staleTimer).next
    rw [Timers.clear?_next]
    exact h.poll_lt id hid

/-- Setting the timer of what is shown. -/
theorem Timed.installFreshness (h : s.Timed loop fresh) (validForMs : ℚ) :
    (s.installFreshness validForMs).Timed loop
      (some ⟨s.timers.next, s.now + validForMs, .stale (s.freshnessGeneration + 1)⟩) where
  pending := by
    intro t
    -- with the old freshness cleared, the new timer is the only one beside the loop's
    have hcleared : t ∈ (s.timers.clear? s.staleTimer).pending ↔ loop = some t :=
      ((h.invalidateDynamic "" .unavailable).pending t).trans (by simp)
    show t ∈ ((s.timers.clear? s.staleTimer).set _ _).pending ↔ _
    rw [Timers.mem_set, Timers.clear?_next, hcleared, or_comm, Option.some.injEq, eq_comm (a := t)]
  stale := by
    show some (s.timers.clear? s.staleTimer).next = _
    rw [Timers.clear?_next]
    rfl
  generation := by
    intro t ht
    rw [← Option.some.inj ht]
    rfl
  loop_ne := h.loop_ne
  poll_ne := by
    intro t ht hid
    rw [← Option.some.inj ht] at hid
    have hlt := h.poll_lt _ hid
    simp at hlt
  poll_lt := by
    intro id hid
    have hlt := h.poll_lt id hid
    show id < (s.timers.clear? s.staleTimer).next + 1
    rw [Timers.clear?_next]
    omega

/-- Clearing the timer that keeps the polls going, if it is still there. -/
theorem Timed.clear (h : s.Timed loop fresh) (id : Nat) (hloop : ∀ t, loop = some t → t.id = id)
    (hfresh : ∀ t, fresh = some t → t.id ≠ id) :
    { s with timers := s.timers.clear id }.Timed none fresh where
  pending := by
    intro t
    show t ∈ (s.timers.clear id).pending ↔ _
    rw [Timers.mem_clear, h.pending]
    constructor
    · intro hmem
      rcases hmem.1 with ht | ht
      · exact absurd (hloop t ht) hmem.2
      · exact .inr ht
    · intro hmem
      have ht : fresh = some t := by simpa using hmem
      exact ⟨.inr ht, hfresh t ht⟩
  stale := h.stale
  generation := h.generation
  loop_ne := fun t ht => by cases ht
  poll_ne := h.poll_ne
  poll_lt := h.poll_lt

/-- Setting the timer that keeps the polls going. -/
theorem Timed.set (h : s.Timed none fresh) (due : ℚ) (callback : Callback)
    (hcallback : ∀ g, callback ≠ .stale g) :
    { s with timers := s.timers.set due callback }.Timed (some ⟨s.timers.next, due, callback⟩)
      fresh where
  pending := by
    intro t
    show t ∈ (s.timers.set due callback).pending ↔ _
    rw [Timers.mem_set, h.pending, Option.some.injEq, eq_comm (a := t)]
    simp
  stale := h.stale
  generation := h.generation
  loop_ne := by
    intro t ht
    rw [← Option.some.inj ht]
    exact hcallback
  poll_ne := h.poll_ne
  poll_lt := by
    intro id hid
    have hlt := h.poll_lt id hid
    show id < s.timers.next + 1
    omega

/-- The page remembers the timer of the next poll. -/
theorem scheduleRefresh_pollTimer (s : Tab) (delayMs : ℚ) :
    (s.scheduleRefresh delayMs).pollTimer = some s.timers.next := by
  show some (s.timers.clear? s.pollTimer).next = _
  rw [Timers.clear?_next]

/-- The next poll gets a timer. -/
theorem Timed.scheduleRefresh (h : s.Timed none fresh) (delayMs : ℚ) :
    (s.scheduleRefresh delayMs).Timed
      (some ⟨s.timers.next, s.now + delayMs, .refreshState⟩) fresh where
  pending := by
    intro t
    show t ∈ ((s.timers.clear? s.pollTimer).set _ _).pending ↔ _
    rw [Timers.mem_set, Timers.mem_clear?, Timers.clear?_next, h.pending, Option.some.injEq,
      eq_comm (a := t)]
    constructor
    · intro hmem
      rcases hmem with heq | hin
      · exact .inl heq
      · exact .inr (by simpa using hin.1)
    · intro hmem
      rcases hmem with heq | hin
      · exact .inl heq
      · -- the number that was kept is not that of the other timer
        exact .inr ⟨.inr hin, h.poll_ne t hin⟩
  stale := h.stale
  generation := h.generation
  loop_ne := by
    intro t ht g
    rw [← Option.some.inj ht]
    exact Callback.noConfusion
  poll_ne := by
    intro t ht hid
    have hlt := s.timers.numbered t ((h.pending t).mpr (.inr ht))
    have heq : (s.timers.clear? s.pollTimer).next = t.id := Option.some.inj hid
    rw [Timers.clear?_next] at heq
    omega
  poll_lt := by
    intro id hid
    have heq : (s.timers.clear? s.pollTimer).next = id := Option.some.inj hid
    show id < (s.timers.clear? s.pollTimer).next + 1
    omega

/-! ## The elements

What is shown is an assignment of all properties that follow the state. -/

/-- What is shown consists of assignments to the properties that follow the state. -/
theorem slots_writes (formats : Formats) (x : Shown) :
    (x.writes formats).map Prod.fst ⊆ dynamicSlots := by
  cases x with
  | invalid reason availability =>
    show (Web.invalidateDynamic reason availability).map Prod.fst ⊆ dynamicSlots
    rw [slots_invalidateDynamic]
    exact List.Subset.refl _
  | polled a started rendered =>
    show (render formats a).map Prod.fst ⊆ dynamicSlots
    rw [slots_render]
    exact renderedSlots_subset

/-- Whatever is shown, all properties are assigned. -/
theorem subset_writes (formats : Formats) (x : Shown) :
    dynamicSlots ⊆ (x.writes formats).map Prod.fst := by
  cases x with
  | invalid reason availability =>
    show dynamicSlots ⊆ (Web.invalidateDynamic reason availability).map Prod.fst
    rw [slots_invalidateDynamic]
    exact List.Subset.refl _
  | polled a started rendered =>
    show dynamicSlots ⊆ (render formats a).map Prod.fst
    rw [slots_render]
    exact dynamicSlots_subset

/-- Whatever of the state has been put into the elements, what is put into them next replaces. -/
theorem apply_writes {ws : List Write} (hws : ws.map Prod.fst ⊆ dynamicSlots) (html : Dom)
    (formats : Formats) (x : Shown) :
    (html.apply ws).apply (x.writes formats) = html.apply (x.writes formats) :=
  Dom.apply_apply (List.Subset.trans hws (subset_writes formats x)) html

/-- The elements are those of `index.html` up to what follows the state. -/
def Covered (html : Dom) (s : Tab) : Prop :=
  ∃ ws : List Write, s.dom = html.apply ws ∧ ws.map Prod.fst ⊆ dynamicSlots

theorem Displayed.covered (h : s.Displayed html formats fresh) : s.Covered html :=
  ⟨_, h.dom, slots_writes formats s.shown⟩

theorem Covered.apply_take (h : s.Covered html) (formats : Formats) (a : Answers) (n : Nat) :
    { s with dom := s.dom.apply ((render formats a).take n) }.Covered html := by
  obtain ⟨ws, hdom, hws⟩ := h
  refine ⟨ws ++ (render formats a).take n, ?_, ?_⟩
  · show s.dom.apply _ = _
    rw [hdom, Dom.apply_append]
  · rw [List.map_append, List.map_take]
    apply List.append_subset.mpr
    refine ⟨hws, List.Subset.trans (List.take_subset _ _) ?_⟩
    exact slots_writes formats (.polled a 0 0)

/-- Whatever was there before, invalidating shows what it says. -/
theorem Covered.invalidateDynamic (h : s.Covered html) (formats : Formats) (reason : String)
    (availability : Availability) :
    (s.invalidateDynamic reason availability).Displayed html formats none where
  dom := by
    obtain ⟨ws, hdom, hws⟩ := h
    have hwrites := apply_writes hws html formats (.invalid reason availability)
    rw [Shown.writes_invalid] at hwrites
    rw [invalidateDynamic_dom, invalidateDynamic_shown, Shown.writes_invalid, hdom, hwrites]
  due := fun a started rendered hshown => by cases hshown
  none := fun _ _ _ => rfl

/-! ## The end of a poll

However a poll ends, it shows something and starts the timer of the next one. -/

/-- The delay of the next poll is within the two bounds. -/
theorem nextRefreshMs_bounds (validForMs : Int) :
    MIN_POLL_MS ≤ nextRefreshMs validForMs ∧ nextRefreshMs validForMs ≤ MAX_POLL_MS := by
  refine ⟨le_max_left _ _, max_le ?_ (min_le_left _ _)⟩
  show (250 : ℚ) ≤ 2000
  norm_num

theorem retry_bounds : MIN_POLL_MS ≤ FAILURE_RETRY_MS ∧ FAILURE_RETRY_MS ≤ MAX_POLL_MS := by
  constructor
  · show (250 : ℚ) ≤ 1000
    norm_num
  · show (1000 : ℚ) ≤ 2000
    norm_num

/-- What presenting the answers to a poll does. -/
structure Presented (html : Dom) (formats : Formats) (s : Tab) (loop : Option (Timer ℚ Callback))
    (f : Flight) (p : Tab × ℚ) : Prop where
  timed : ∃ fresh, p.1.Timed loop fresh ∧ p.1.Displayed html formats fresh ∧
    ∀ t, fresh = some t → t.id = s.timers.next
  now : p.1.now = s.now
  flights : p.1.flights = s.flights
  calls : p.1.calls = s.calls
  shown : ∀ a started rendered, p.1.shown = .polled a started rendered →
    started = f.started ∧ rendered = s.now
  least : MIN_POLL_MS ≤ p.2
  most : p.2 ≤ MAX_POLL_MS

/-- A poll that failed invalidates the page. -/
theorem presented_invalid (h : s.Timed loop fresh) (hcovered : s.Covered html) (formats : Formats)
    (f : Flight) (reason : String) :
    Presented html formats s loop f (s.invalidateDynamic reason .error, FAILURE_RETRY_MS) where
  timed := ⟨none, h.invalidateDynamic _ _, hcovered.invalidateDynamic formats _ _,
    fun t ht => by cases ht⟩
  now := rfl
  flights := rfl
  calls := rfl
  shown := fun a started rendered hshown => by cases hshown
  least := retry_bounds.1
  most := retry_bounds.2

/-- A poll is presented, whatever it came to and wherever its rendering breaks off. -/
theorem presented (h : s.Timed loop fresh) (hcovered : s.Covered html) (formats : Formats)
    (f : Flight) (r : Except FetchError Answers) (throwsAfter : Option Nat) :
    Presented html formats s loop f (s.present formats f r throwsAfter) := by
  cases r with
  | error e => exact presented_invalid h hcovered formats f _
  | ok a =>
    cases throwsAfter with
    -- the rendering threw: what it had written by then is overwritten
    | some n =>
      have htimed : { s with dom := s.dom.apply ((render formats a).take n) }.Timed loop fresh :=
        ⟨h.pending, h.stale, h.generation, h.loop_ne, h.poll_ne, h.poll_lt⟩
      have hinvalid := presented_invalid htimed (hcovered.apply_take formats a n) formats f
        (reasonOf .other)
      exact ⟨hinvalid.timed, hinvalid.now, hinvalid.flights, hinvalid.calls, hinvalid.shown,
        hinvalid.least, hinvalid.most⟩
    | none =>
      -- rendered to its end: the answers are on show until their freshness ends
      set u : Tab := { s with
        dom := s.dom.apply (render formats a), shown := .polled a f.started s.now } with hu
      have htimed : u.Timed loop fresh :=
        ⟨h.pending, h.stale, h.generation, h.loop_ne, h.poll_ne, h.poll_lt⟩
      have hbounds := nextRefreshMs_bounds a.status.val.validForMs
      have hpresent : s.present formats f (.ok a) none =
          (u.installFreshness a.status.val.validForMs, nextRefreshMs a.status.val.validForMs) := rfl
      rw [hpresent]
      refine ⟨⟨_, htimed.installFreshness a.status.val.validForMs, ?_, ?_⟩, rfl, rfl, rfl, ?_,
        hbounds.1, hbounds.2⟩
      · constructor
        · obtain ⟨ws, hdom, hws⟩ := hcovered
          have hwrites := apply_writes hws html formats (.polled a f.started s.now)
          rw [Shown.writes_polled] at hwrites
          rw [installFreshness_dom, installFreshness_shown, hu, hdom]
          dsimp only
          rw [Shown.writes_polled, hwrites]
        · intro b started rendered hshown
          cases hshown
          exact ⟨_, rfl, rfl⟩
        · intro reason availability hshown
          cases hshown
      · intro t ht
        rw [← Option.some.inj ht]
      · intro b started rendered hshown
        cases hshown
        exact ⟨rfl, rfl⟩

/-- What the end of a poll does. -/
structure Finished (html : Dom) (formats : Formats) (s : Tab) (f : Flight) (w : Tab)
    (t : Timer ℚ Callback) (fresh : Option (Timer ℚ Callback)) : Prop where
  timed : w.Timed (some t) fresh
  displayed : w.Displayed html formats fresh
  callback : t.callback = .refreshState
  pollTimer : w.pollTimer = some t.id
  flights : w.flights = []
  now : w.now = s.now
  calls : w.calls = s.calls
  shown : ∀ a started rendered, w.shown = .polled a started rendered →
    started = f.started ∧ rendered = s.now
  least : s.now + MIN_POLL_MS ≤ t.due
  most : t.due ≤ s.now + MAX_POLL_MS

/-- After a poll its timer is cleared and the next one is set. -/
theorem finished {f g : Flight} (h : s.Timed loop fresh) (hcovered : s.Covered html)
    (formats : Formats) (hloop : ∀ t, loop = some t → t.id = f.fetchTimeout)
    (hlt : f.fetchTimeout < s.timers.next)
    (hflights : s.flights = [g]) (hsame : g.controller = f.controller)
    (r : Except FetchError Answers) (throwsAfter : Option Nat) :
    ∃ t u, Finished html formats s f (s.finish formats f r throwsAfter) t u := by
  set v : Tab := { s with flights := s.flights.filter fun g => g.controller ≠ f.controller } with hv
  have htimed : v.Timed loop fresh :=
    ⟨h.pending, h.stale, h.generation, h.loop_ne, h.poll_ne, h.poll_lt⟩
  have hv : v.Covered html := hcovered
  -- there was this one flight, and its timeout is cleared before the next poll is set
  have hempty : v.flights = [] := by
    show s.flights.filter _ = []
    rw [hflights]
    simp [hsame]
  have hp := presented htimed hv formats f r throwsAfter
  have hfinish : s.finish formats f r throwsAfter =
      Tab.scheduleRefresh (v.present formats f r throwsAfter).2
        { (v.present formats f r throwsAfter).1 with
          timers := (v.present formats f r throwsAfter).1.timers.clear f.fetchTimeout } := rfl
  rw [hfinish]
  generalize v.present formats f r throwsAfter = p at hp
  obtain ⟨u, hu, hdisplayed, hid⟩ := hp.timed
  have hcleared := hu.clear f.fetchTimeout hloop fun t ht heq => by
    have hnext : t.id = s.timers.next := hid t ht
    omega
  refine ⟨_, u, hcleared.scheduleRefresh p.2, ⟨hdisplayed.dom, hdisplayed.due, hdisplayed.none⟩,
    rfl, scheduleRefresh_pollTimer _ _, hp.flights.trans hempty, hp.now, hp.calls, hp.shown, ?_, ?_⟩
  · show s.now + MIN_POLL_MS ≤ p.1.now + p.2
    have hnow : p.1.now = s.now := hp.now
    linarith [hp.least]
  · show p.1.now + p.2 ≤ s.now + MAX_POLL_MS
    have hnow : p.1.now = s.now := hp.now
    linarith [hp.most]

/-! ## One step

The steps of the tab, each with its guards. -/

end Tab

/-- Another state of the same requests. -/
structure Flight.Same (f g : Flight) : Prop where
  controller : g.controller = f.controller
  fetchTimeout : g.fetchTimeout = f.fetchTimeout
  started : g.started = f.started

/-- Requests that are aborted are the same requests. -/
theorem Flight.same_abort (f : Flight) : f.Same f.abort :=
  ⟨rfl, rfl, rfl⟩

theorem Flight.same_settle {f g : Flight} {o : Outcome} (h : f.settle o = some g) : f.Same g := by
  cases o <;>
  · simp only [Flight.settle] at h
    split at h
    · cases h
    · rw [Option.some.injEq] at h
      subst h
      split <;> exact ⟨rfl, rfl, rfl⟩

/-- Aborting settles all the requests. -/
theorem Flight.settled_abort (f : Flight) : ∃ r, f.abort.settled = some r :=
  ⟨_, rfl⟩

namespace Tab

variable {s w : Tab} {fresh : Option (Timer ℚ Callback)} {html : Dom} {formats : Formats}

/-- What keeps the polls going: the timer of the next one, or that of the requests under way. -/
inductive Loop (s : Tab) (t : Timer ℚ Callback) : Prop where
  | waiting (hcallback : t.callback = .refreshState) (hpoll : s.pollTimer = some t.id)
      (hflights : s.flights = []) : Loop s t
  | polling {f : Flight} (hcallback : t.callback = .abort f.controller)
      (hid : t.id = f.fetchTimeout) (hflights : s.flights = [f]) (hopen : f.settled = none) : Loop s t

/-- The loop depends on the poll's timer and on the requests. -/
theorem Loop.congr {t : Timer ℚ Callback} (h : s.Loop t) (hpoll : w.pollTimer = s.pollTimer)
    (hflights : w.flights = s.flights) : w.Loop t := by
  cases h with
  | waiting hcallback hkept hnone =>
    exact .waiting hcallback (hpoll.trans hkept) (hflights.trans hnone)
  | polling hcallback hid hone hopen => exact .polling hcallback hid (hflights.trans hone) hopen

/-- What a step can do. -/
inductive Effect (formats : Formats) (s : Tab) (t : Timer ℚ Callback)
    (fresh : Option (Timer ℚ Callback)) : TabEvent → Tab → Prop where
  | passes {ms : ℚ} (hms : 0 ≤ ms) : Effect formats s t fresh (.wait ms) { s with now := s.now + ms }
  | scan {e : TabEvent} (b : Bool) : Effect formats s t fresh e { s with scanInProgress := b }
  | calls {e : TabEvent} (hcallback : t.callback = .refreshState) (hdue : t.due ≤ s.now)
      (hflights : s.flights = []) :
      Effect formats s t fresh e { s with timers := s.timers.clear t.id }.refreshState
  | stale {e : TabEvent} {u : Timer ℚ Callback} (hfresh : fresh = some u) (hdue : u.due ≤ s.now) :
      Effect formats s t fresh e
        ({ s with timers := s.timers.clear u.id }.invalidateDynamic "status_stale" .unavailable)
  | settles {e : TabEvent} {f g : Flight} (hid : t.id = f.fetchTimeout)
      (hcallback : t.callback = .abort f.controller) (hflights : s.flights = [f])
      (hsame : f.Same g) (hopen : g.settled = none) :
      Effect formats s t fresh e { s with flights := [g] }
  | aborts {e : TabEvent} {f g : Flight} (hid : t.id = f.fetchTimeout)
      (hflights : s.flights = [f]) (hsame : f.Same g) (r : Except FetchError Answers) :
      Effect formats s t fresh e
        ({ s with timers := s.timers.clear t.id }.finish formats g r none)
  | finishes {e : TabEvent} {f g : Flight} (hid : t.id = f.fetchTimeout)
      (hflights : s.flights = [f]) (hsame : f.Same g) (r : Except FetchError Answers)
      (throwsAfter : Option Nat) : Effect formats s t fresh e (s.finish formats g r throwsAfter)

theorem effect_of_fire {t u : Timer ℚ Callback} (htimed : s.Timed (some t) fresh)
    (hloop : s.Loop t) (hu : u ∈ s.timers.pending) (hdue : u.due ≤ s.now) (e : TabEvent) :
    Effect formats s t fresh e
      ({ s with timers := s.timers.clear u.id }.run formats u.callback) := by
  rcases (htimed.pending u).mp hu with hsame | hfresh
  · have hsame : t = u := Option.some.inj hsame
    subst hsame
    cases hloop with
    | waiting hcallback hpoll hflights =>
      rw [hcallback]
      exact .calls hcallback hdue hflights
    | @polling f hcallback hid hflights hopen =>
      obtain ⟨r, hr⟩ := f.settled_abort
      have hfind : Tab.findFlight f.controller { s with timers := s.timers.clear t.id } = some f := by
        show s.flights.find? _ = some f
        rw [hflights]
        simp
      rw [hcallback]
      simp only [run, hfind, advance, hr]
      exact .aborts hid hflights f.same_abort r
  · rw [htimed.generation u hfresh]
    show Effect formats s t fresh e (if s.freshnessGeneration = s.freshnessGeneration then _ else _)
    rw [if_pos rfl]
    exact .stale hfresh hdue

/-- A request comes to its end. -/
theorem effect_of_settle {t : Timer ℚ Callback} (hloop : s.Loop t) {controller : Nat} {f g : Flight}
    {o : Outcome} (hfind : s.findFlight controller = some f) (hsettle : f.settle o = some g)
    (throwsAfter : Option Nat) (e : TabEvent) :
    Effect formats s t fresh e (s.advance formats g throwsAfter) := by
  have hmem : f ∈ s.flights := List.mem_of_find?_eq_some hfind
  have hsame := Flight.same_settle hsettle
  cases hloop with
  -- a page that waits for its next poll has no flight to settle
  | waiting hcallback hpoll hflights =>
    rw [hflights] at hmem
    exact absurd hmem List.not_mem_nil
  | @polling f' hcallback hid hflights hopen =>
    have heq : f = f' := by
      rw [hflights] at hmem
      exact List.mem_singleton.mp hmem
    subst heq
    unfold advance
    cases hsettled : g.settled with
    -- some answers are still out
    | none =>
      have hreplace : (s.flights.map fun h => if h.controller = g.controller then g else h) = [g] := by
        rw [hflights, hsame.controller]
        simp
      show Effect formats s t fresh e { s with flights := _ }
      rw [hreplace]
      exact .settles hid hcallback hflights hsame hsettled
    | some r => exact .finishes hid hflights hsame r throwsAfter

/-- The inversion lemma of the tab. -/
theorem effect_of_step {t : Timer ℚ Callback} {e : TabEvent} (htimed : s.Timed (some t) fresh)
    (hloop : s.Loop t) (h : Tab.step formats e s = some w) : Effect formats s t fresh e w := by
  cases e with
  | wait ms =>
    obtain ⟨hms, hw⟩ := Option.ite_none_right_eq_some.mp h
    rw [← Option.some.inj hw]
    exact .passes hms
  | fire id =>
    simp only [Tab.step] at h
    -- a timer that is due is the loop's or the freshness's
    split at h
    · cases h
    · next u hfind =>
      obtain ⟨hdue, hw⟩ := Option.ite_none_right_eq_some.mp h
      obtain ⟨hu, hid⟩ := Timers.find?_eq_some hfind
      rw [← Option.some.inj hw, ← hid]
      exact effect_of_fire htimed hloop hu hdue _
  | settle controller o throwsAfter =>
    simp only [Tab.step] at h
    split at h
    · cases h
    · next f hfind =>
      obtain ⟨g, hg, hw⟩ := Option.map_eq_some_iff.mp h
      rw [← hw]
      exact effect_of_settle hloop hfind hg throwsAfter _
  -- a scan touches the page outside the display only
  | scan =>
    obtain ⟨-, hw⟩ := Option.ite_none_left_eq_some.mp h
    rw [← Option.some.inj hw]
    exact .scan true
  | scanned =>
    obtain ⟨-, hw⟩ := Option.ite_none_right_eq_some.mp h
    rw [← Option.some.inj hw]
    exact .scan false

/-! ## Invariant

What every step keeps, and what it keeps beside it when the event loop is in time. -/

/-- What holds in every run. -/
structure Good (html : Dom) (formats : Formats) (s : Tab) (t : Timer ℚ Callback)
    (fresh : Option (Timer ℚ Callback)) : Prop where
  timed : s.Timed (some t) fresh
  displayed : s.Displayed html formats fresh
  loop : s.Loop t
  past : ∀ c ∈ s.calls, c ≤ s.now
  spaced : s.calls.Pairwise fun later earlier => earlier + MIN_POLL_MS ≤ later
  next : t.callback = .refreshState → ∀ c ∈ s.calls, c + MIN_POLL_MS ≤ t.due

/-- The longest time from a call of `refreshState` to the next. -/
def longestPoll (late : ℚ) : ℚ :=
  FETCH_TIMEOUT_MS + late + MAX_POLL_MS + late

/-- What holds beside it when the event loop is never late by more than `late`. -/
structure OnTime (late : ℚ) (s : Tab) (t : Timer ℚ Callback) (fresh : Option (Timer ℚ Callback)) :
    Prop where
  loop : s.now ≤ t.due + late
  fresh : ∀ u, fresh = some u → s.now ≤ u.due + late
  due : ∀ c ∈ s.calls.head?, t.due + late ≤ c + longestPoll late
  flight : ∀ f ∈ s.flights, s.calls.head? = some f.started ∧ t.due = f.started + FETCH_TIMEOUT_MS
  gaps : s.calls.IsChain fun later earlier => later ≤ earlier + longestPoll late
  shown : ∀ a started rendered, s.shown = .polled a started rendered →
    rendered ≤ started + FETCH_TIMEOUT_MS + late

/-- What a step keeps, whether or not the event loop is in time. -/
def Keeps (html : Dom) (formats : Formats) (s : Tab) (t : Timer ℚ Callback)
    (fresh : Option (Timer ℚ Callback)) (e : TabEvent) (w : Tab) : Prop :=
  ∃ u fresh', Good html formats w u fresh' ∧
    ∀ late, 0 ≤ late → Prompt late s e → OnTime late s t fresh → OnTime late w u fresh'

variable {t : Timer ℚ Callback} {e : TabEvent}

theorem keeps_passes {ms : ℚ} (h : Good html formats s t fresh) (hms : 0 ≤ ms) :
    Keeps html formats s t fresh (.wait ms) { s with now := s.now + ms } := by
  obtain ⟨htimed, hdisplayed, hloop, hpast, hspaced, hnext⟩ := h
  refine ⟨t, fresh, ⟨⟨htimed.pending, htimed.stale, htimed.generation, htimed.loop_ne,
    htimed.poll_ne, htimed.poll_lt⟩, ⟨hdisplayed.dom, hdisplayed.due, hdisplayed.none⟩,
    hloop.congr rfl rfl, ?_, hspaced, hnext⟩, ?_⟩
  · intro c hc
    have hle := hpast c hc
    show c ≤ s.now + ms
    linarith
  · intro late hlate hprompt hontime
    refine ⟨?_, ?_, hontime.due, hontime.flight, hontime.gaps, hontime.shown⟩
    · exact hprompt t htimed.mem_loop
    · intro u hu
      exact hprompt u ((htimed.pending u).mpr (.inr hu))

/-- A scan begins or ends. -/
theorem keeps_scan (h : Good html formats s t fresh) (b : Bool) :
    Keeps html formats s t fresh e { s with scanInProgress := b } := by
  obtain ⟨htimed, hdisplayed, hloop, hpast, hspaced, hnext⟩ := h
  refine ⟨t, fresh, ⟨⟨htimed.pending, htimed.stale, htimed.generation, htimed.loop_ne,
    htimed.poll_ne, htimed.poll_lt⟩, ⟨hdisplayed.dom, hdisplayed.due, hdisplayed.none⟩,
    hloop.congr rfl rfl, hpast, hspaced, hnext⟩, ?_⟩
  · intro late hlate hprompt hontime
    exact ⟨hontime.loop, hontime.fresh, hontime.due, hontime.flight, hontime.gaps, hontime.shown⟩

/-- A request comes to its end while others are under way. -/
theorem keeps_settles {f g : Flight} (h : Good html formats s t fresh)
    (hid : t.id = f.fetchTimeout) (hcallback : t.callback = .abort f.controller)
    (hflights : s.flights = [f]) (hsame : f.Same g) (hopen : g.settled = none) :
    Keeps html formats s t fresh e { s with flights := [g] } := by
  obtain ⟨htimed, hdisplayed, -, hpast, hspaced, hnext⟩ := h
  refine ⟨t, fresh, ⟨⟨htimed.pending, htimed.stale, htimed.generation, htimed.loop_ne,
    htimed.poll_ne, htimed.poll_lt⟩, ⟨hdisplayed.dom, hdisplayed.due, hdisplayed.none⟩, ?_, hpast,
    hspaced, hnext⟩, ?_⟩
  · refine .polling (f := g) ?_ ?_ rfl hopen
    · rw [hcallback, hsame.controller]
    · rw [hid, hsame.fetchTimeout]
  · intro late hlate hprompt hontime
    refine ⟨hontime.loop, hontime.fresh, hontime.due, ?_, hontime.gaps, hontime.shown⟩
    intro k hk
    have hf := hontime.flight f (by rw [hflights]; exact List.mem_singleton_self f)
    rw [List.mem_singleton.mp hk, hsame.started]
    exact hf

/-- What is shown is taken away. -/
theorem keeps_stale {u : Timer ℚ Callback} (h : Good html formats s t fresh)
    (hfresh : fresh = some u) :
    Keeps html formats s t fresh e
      ({ s with timers := s.timers.clear u.id }.invalidateDynamic "status_stale" .unavailable) := by
  obtain ⟨htimed, hdisplayed, hloop, hpast, hspaced, hnext⟩ := h
  have hcovered := hdisplayed.covered
  subst hfresh
  -- the timer that has run is the one that would be cleared
  have hcleared : ({ s with timers := s.timers.clear u.id } : Tab).invalidateDynamic "status_stale"
      .unavailable = { s.invalidateDynamic "status_stale" .unavailable with
        timers := (s.timers.clear u.id).clear u.id } := by
    simp only [invalidateDynamic, htimed.stale, Option.map_some, Timers.clear?]
  have hinvalid := htimed.invalidateDynamic "status_stale" .unavailable
  have hkept : ∀ v : Timer ℚ Callback, v ∈ ((s.timers.clear u.id).clear u.id).pending ↔
      v ∈ (s.invalidateDynamic "status_stale" .unavailable).timers.pending := by
    intro v
    simp only [invalidateDynamic, htimed.stale, Option.map_some, Timers.clear?, Timers.mem_clear]
    tauto
  rw [hcleared]
  refine ⟨t, none, ⟨⟨?_, rfl, fun v hv => (by cases hv), htimed.loop_ne, fun v hv => (by cases hv),
    htimed.poll_lt⟩, ?_, hloop.congr rfl rfl, hpast, hspaced, hnext⟩, ?_⟩
  · intro v
    exact (hkept v).trans (hinvalid.pending v)
  · have hdisplayed := hcovered.invalidateDynamic formats "status_stale" .unavailable
    exact ⟨hdisplayed.dom, hdisplayed.due, hdisplayed.none⟩
  · intro late hlate hprompt hontime
    refine ⟨hontime.loop, ?_, hontime.due, hontime.flight, hontime.gaps, ?_⟩
    · intro v hv
      cases hv
    · intro a started rendered hshown
      cases hshown

/-- A call of `refreshState` when its time has come. -/
theorem keeps_calls (h : Good html formats s t fresh) (hcallback : t.callback = .refreshState)
    (hdue : t.due ≤ s.now) (hflights : s.flights = []) :
    Keeps html formats s t fresh e { s with timers := s.timers.clear t.id }.refreshState := by
  obtain ⟨htimed, hdisplayed, -, hpast, hspaced, hnext⟩ := h
  have hcleared : { s with timers := s.timers.clear t.id, calls := s.now :: s.calls }.Timed none
      fresh := by
    have hclear := htimed.clear t.id (fun u hu => by rw [Option.some.inj hu]) fun u hu heq =>
      (hu ▸ htimed).ne heq.symm
    exact ⟨hclear.pending, hclear.stale, hclear.generation, hclear.loop_ne, hclear.poll_ne,
      hclear.poll_lt⟩
  have hpast' : ∀ c ∈ s.now :: s.calls, c ≤ s.now := by
    intro c hc
    rcases List.mem_cons.mp hc with heq | hin
    · exact le_of_eq heq
    · exact hpast c hin
  have hspaced' : (s.now :: s.calls).Pairwise fun later earlier => earlier + MIN_POLL_MS ≤ later := by
    refine List.pairwise_cons.mpr ⟨?_, hspaced⟩
    intro c hc
    exact (hnext hcallback c hc).trans hdue
  have hgaps : ∀ late, OnTime late s t fresh →
      (s.now :: s.calls).IsChain fun later earlier => later ≤ earlier + longestPoll late := by
    intro late hontime
    refine hontime.gaps.cons ?_
    intro c hc
    exact hontime.loop.trans (hontime.due c hc)
  have hlongest : ∀ late, 0 ≤ late → s.now + 1000 + late ≤ s.now + longestPoll late := by
    intro late hlate
    show s.now + 1000 + late ≤ s.now + (1000 + late + 2000 + late)
    linarith
  dsimp only [refreshState]
  split
  · -- a scan is under way: the call only sets the timer of the next one
    refine ⟨_, fresh, ⟨hcleared.scheduleRefresh FAILURE_RETRY_MS, ⟨hdisplayed.dom, hdisplayed.due,
      hdisplayed.none⟩, .waiting rfl (scheduleRefresh_pollTimer _ _) hflights, hpast', hspaced', ?_⟩,
      ?_⟩
    · intro _ c hc
      have hle := hpast' c hc
      show c + 250 ≤ s.now + 1000
      linarith
    · intro late hlate hprompt hontime
      refine ⟨?_, hontime.fresh, ?_, ?_, hgaps late hontime, hontime.shown⟩
      · show s.now ≤ s.now + 1000 + late
        linarith
      · intro c hc
        rw [← Option.some.inj hc]
        exact hlongest late hlate
      · intro f hf
        have hnone : f ∈ s.flights := hf
        rw [hflights] at hnone
        exact absurd hnone List.not_mem_nil
  · have hset := hcleared.set (s.now + FETCH_TIMEOUT_MS) (.abort s.controllers) fun g =>
      Callback.noConfusion
    refine ⟨_, fresh, ⟨⟨hset.pending, hset.stale, hset.generation, hset.loop_ne, hset.poll_ne,
      hset.poll_lt⟩, ⟨hdisplayed.dom, hdisplayed.due, hdisplayed.none⟩, ?_, hpast', hspaced', ?_⟩,
      ?_⟩
    · refine .polling (f := ⟨s.controllers, s.timers.next, s.now, none, none, none⟩) rfl rfl ?_ rfl
      show _ :: s.flights = _
      rw [hflights]
      rfl
    · intro habort
      cases habort
    · intro late hlate hprompt hontime
      refine ⟨?_, hontime.fresh, ?_, ?_, hgaps late hontime, hontime.shown⟩
      · show s.now ≤ s.now + 1000 + late
        linarith
      · intro c hc
        rw [← Option.some.inj hc]
        exact hlongest late hlate
      · intro f hf
        have hone : f ∈ [(⟨s.controllers, s.timers.next, s.now, none, none, none⟩ : Flight)] := by
          rw [← hflights]
          exact hf
        rw [List.mem_singleton.mp hone]
        exact ⟨rfl, rfl⟩

/-- The end of a poll. -/
theorem keeps_finished {v : Tab} {u : Timer ℚ Callback} {fresh' : Option (Timer ℚ Callback)}
    {f g : Flight} (h : Good html formats s t fresh) (hnow : v.now = s.now)
    (hcalls : v.calls = s.calls) (hflights : s.flights = [f]) (hsame : f.Same g)
    (hw : Finished html formats v g w u fresh') : Keeps html formats s t fresh e w := by
  have hwnow : w.now = s.now := hw.now.trans hnow
  have hwcalls : w.calls = s.calls := hw.calls.trans hcalls
  have hleast : s.now + 250 ≤ u.due := by
    rw [← hnow]
    exact hw.least
  have hmost : u.due ≤ s.now + 2000 := by
    rw [← hnow]
    exact hw.most
  refine ⟨u, fresh', ⟨hw.timed, hw.displayed, .waiting hw.callback hw.pollTimer hw.flights, ?_, ?_,
    ?_⟩, ?_⟩
  · rw [hwnow, hwcalls]
    exact h.past
  · rw [hwcalls]
    exact h.spaced
  · intro _ c hc
    have hle := h.past c (hwcalls ▸ hc)
    show c + 250 ≤ u.due
    linarith
  · intro late hlate hprompt hontime
    obtain ⟨hlast, hdue⟩ := hontime.flight f (by rw [hflights]; exact List.mem_singleton_self f)
    -- the requests are aborted after the timeout, and the loop may be late for that
    have hended : s.now ≤ f.started + 1000 + late := by
      have hloop := hontime.loop
      rw [hdue] at hloop
      exact hloop
    refine ⟨?_, ?_, ?_, ?_, ?_, ?_⟩
    · rw [hwnow]
      linarith
    · intro x hx
      cases hshown : w.shown with
      | invalid reason availability =>
        rw [hw.displayed.none _ _ hshown] at hx
        cases hx
      | polled a started rendered =>
        obtain ⟨y, hy, hydue⟩ := hw.displayed.due _ _ _ hshown
        have hrendered : rendered = v.now := (hw.shown _ _ _ hshown).2
        have hvalid : (100 : ℚ) ≤ a.status.val.validForMs := by
          exact_mod_cast a.status.validForMs_bounds.1
        rw [← Option.some.inj (hy.symm.trans hx), hydue, hrendered, hnow, hwnow]
        linarith
    · intro c hc
      rw [hwcalls, hlast] at hc
      rw [← Option.some.inj hc]
      show u.due + late ≤ f.started + (1000 + late + 2000 + late)
      linarith
    · intro k hk
      rw [hw.flights] at hk
      exact absurd hk List.not_mem_nil
    · rw [hwcalls]
      exact hontime.gaps
    · intro a started rendered hshown
      obtain ⟨hstarted, hrendered⟩ := hw.shown a started rendered hshown
      rw [hstarted, hrendered, hsame.started, hnow]
      exact hended

/-- Every step keeps the invariant. -/
theorem keeps_of_effect (h : Good html formats s t fresh) (he : Effect formats s t fresh e w) :
    Keeps html formats s t fresh e w := by
  cases he with
  | passes hms => exact keeps_passes h hms
  | scan b => exact keeps_scan h b
  | calls hcallback hdue hflights => exact keeps_calls h hcallback hdue hflights
  | stale hfresh hdue => exact keeps_stale h hfresh
  | settles hid hcallback hflights hsame hopen =>
    exact keeps_settles h hid hcallback hflights hsame hopen
  -- the fetches were aborted or have settled, so the poll comes to its end
  | @aborts _ f g hid hflights hsame r =>
    have hcleared : { s with timers := s.timers.clear t.id }.Timed none fresh :=
      h.timed.clear t.id (fun u hu => by rw [Option.some.inj hu]) fun u hu heq =>
        (hu ▸ h.timed).ne heq.symm
    have hlt : g.fetchTimeout < s.timers.next := by
      rw [hsame.fetchTimeout, ← hid]
      exact s.timers.numbered t h.timed.mem_loop
    obtain ⟨u, fresh', hw⟩ := finished hcleared h.displayed.covered
      formats (fun u hu => by cases hu) hlt hflights hsame.controller.symm r none
    exact keeps_finished (v := { s with timers := s.timers.clear t.id }) h rfl rfl hflights hsame hw
  | @finishes _ f g hid hflights hsame r throwsAfter =>
    have hlt : g.fetchTimeout < s.timers.next := by
      rw [hsame.fetchTimeout, ← hid]
      exact s.timers.numbered t h.timed.mem_loop
    have hloop : ∀ u, some t = some u → u.id = g.fetchTimeout := by
      intro u hu
      rw [← Option.some.inj hu, hid, hsame.fetchTimeout]
    obtain ⟨u, fresh', hw⟩ := finished h.timed h.displayed.covered formats hloop hlt hflights
      hsame.controller.symm r throwsAfter
    exact keeps_finished h rfl rfl hflights hsame hw

/-! ## Runs

From the steps to every run. -/

variable (html formats)

def firstTimer : Timer ℚ Callback :=
  ⟨0, 0 + FETCH_TIMEOUT_MS, .abort 0⟩

theorem good_load : Good html formats (load html) firstTimer none where
  timed := by
    refine ⟨?_, rfl, fun u hu => (by cases hu), ?_, fun u hu => (by cases hu),
      fun id hid => (by cases hid)⟩
    · intro u
      show u ∈ [firstTimer] ↔ some firstTimer = some u ∨ none = some u
      simp [eq_comm]
    · intro u hu g
      rw [← Option.some.inj hu]
      exact Callback.noConfusion
  displayed := by
    refine ⟨rfl, ?_, fun _ _ _ => rfl⟩
    intro a started rendered hshown
    cases hshown
  loop := .polling (f := ⟨0, 0, 0, none, none, none⟩) rfl rfl rfl rfl
  past := by
    intro c hc
    rw [List.mem_singleton.mp hc]
    exact le_refl _
  spaced := List.pairwise_singleton _ _
  next := fun hcallback => by cases hcallback

theorem onTime_load {late : ℚ} (hlate : 0 ≤ late) : OnTime late (load html) firstTimer none where
  loop := by
    show (0 : ℚ) ≤ 0 + 1000 + late
    linarith
  fresh := fun u hu => by cases hu
  due := by
    intro c hc
    rw [← Option.some.inj hc]
    show (0 : ℚ) + 1000 + late ≤ 0 + (1000 + late + 2000 + late)
    linarith
  flight := by
    intro f hf
    rw [List.mem_singleton.mp hf]
    exact ⟨rfl, rfl⟩
  gaps := List.isChain_singleton _
  shown := by
    intro a started rendered hshown
    cases hshown

variable {html formats}

/-- The invariant holds in every run. -/
theorem good_of_run {ok : Tab → TabEvent → Prop} {es : List TabEvent}
    (run : (tab html formats).Run ok (load html) es s) :
    ∃ t fresh, Good html formats s t fresh := by
  refine run.invariant (I := fun s => ∃ t fresh, Good html formats s t fresh)
    ⟨_, _, good_load html formats⟩ ?_
  intro s e w hgood _ hstep
  obtain ⟨t, fresh, h⟩ := hgood
  obtain ⟨u, fresh', hw, -⟩ := keeps_of_effect h (effect_of_step h.timed h.loop hstep)
  exact ⟨u, fresh', hw⟩

theorem onTime_of_run {late : ℚ} (hlate : 0 ≤ late) {es : List TabEvent}
    (run : (tab html formats).Run (Prompt late) (load html) es s) :
    ∃ t fresh, Good html formats s t fresh ∧ OnTime late s t fresh := by
  refine run.invariant (I := fun s => ∃ t fresh, Good html formats s t fresh ∧ OnTime late s t fresh)
    ⟨_, _, good_load html formats, onTime_load html hlate⟩ ?_
  intro s e w hgood hprompt hstep
  obtain ⟨t, fresh, h, hontime⟩ := hgood
  obtain ⟨u, fresh', hw, hkeeps⟩ := keeps_of_effect h (effect_of_step h.timed h.loop hstep)
  exact ⟨u, fresh', hw, hkeeps late hlate hprompt hontime⟩

/-! ## A poll that is answered

A run in which the page shows an answer. -/

def blankPage : Dom := fun _ => .text ""

def plainFormats : Formats := ⟨fun _ => "", fun _ => ""⟩

/-- Answers to a poll that are valid for 800 ms. -/
def plainAnswers : Answers where
  status := ⟨⟨"v1", 800, .ready, NOT_INTEGRATED, NOT_INTEGRATED, NOT_INTEGRATED, NOT_INTEGRATED⟩,
    by decide⟩
  network := ⟨⟨"v1", .ready, .provisioningAp, some "wlan0", none, "10.77.0.0/24", true, true, none,
    none⟩, by decide⟩
  system := ⟨⟨"v1", .ready, none, WEB_VERSION, NOT_INTEGRATED, none, ⟨0, true, true⟩⟩, by decide⟩

/-- A poll is answered after 300 ms and shown for 400 ms, until the next call. -/
def answeredPoll : List TabEvent :=
  [.wait 300, .settle 0 (.network (.ok plainAnswers.network)) none,
    .settle 0 (.status (.ok plainAnswers.status)) none,
    .settle 0 (.system (.ok plainAnswers.system)) none, .wait 400, .fire 2]

def isPolled (s : Tab) : Bool :=
  match s.shown with
  | .polled _ _ _ => true
  | .invalid _ _ => false

/-- The run is possible, and shows the answer. -/
theorem answeredPoll_runs : ∃ s, (tab blankPage plainFormats).Run
    (fun s e => decide (Prompt 0 s e) = true) (load blankPage) answeredPoll s ∧
      s.isPolled = true := by
  have h : ((tab blankPage plainFormats).exec (fun s e => decide (Prompt 0 s e)) answeredPoll
      (load blankPage)).any isPolled = true := by decide +kernel
  obtain ⟨s, hs, hpolled⟩ := (Option.any_eq_true _ _).mp h
  exact ⟨s, System.run_of_exec hs, hpolled⟩

/-! ## Results

What is shown, how old it is, and when the server is asked. -/

/-- **One poll or none of it.** In every run of the page the elements that follow the state of the
appliance show the answers to one poll, all of them, or one reason why there is nothing to show.
While they show a poll the timer at which it is stale is pending, and when that runs nothing of the
poll is left. -/
theorem display_of_run {ok : Tab → TabEvent → Prop} {es : List TabEvent}
    (run : (tab html formats).Run ok (load html) es s) :
    s.dom = html.apply (s.shown.writes formats) ∧
      ∀ a started rendered, s.shown = .polled a started rendered →
        ∃ t ∈ s.timers.pending, t.due = rendered + a.status.val.validForMs ∧
          (t.due ≤ s.now → (Tab.step formats (.fire t.id) s).isSome = true) ∧
          ∀ w, Tab.step formats (.fire t.id) s = some w →
            w.dom = html.apply (Web.invalidateDynamic "status_stale" .unavailable) := by
  obtain ⟨t, fresh, h⟩ := good_of_run run
  refine ⟨h.displayed.dom, ?_⟩
  -- what is on show has a timer for the end of its freshness
  intro a started rendered hshown
  obtain ⟨u, hu, hdue⟩ := h.displayed.due a started rendered hshown
  have hmem : u ∈ s.timers.pending := (h.timed.pending u).mpr (.inr hu)
  have hfind : s.timers.find? u.id = some u := Timers.find?_of_mem hmem
  -- that timer may fire once it is due, and its generation is the current one
  have hfire : Tab.step formats (.fire u.id) s = if u.due ≤ s.now then
      some ({ s with timers := s.timers.clear u.id }.run formats u.callback) else none := by
    simp only [Tab.step, hfind]
  refine ⟨u, hmem, hdue, ?_, ?_⟩
  · intro hle
    rw [hfire, if_pos hle]
    rfl
  · intro w hw
    rw [hfire] at hw
    obtain ⟨hle, hw⟩ := Option.ite_none_right_eq_some.mp hw
    have hrun : ({ s with timers := s.timers.clear u.id } : Tab).run formats u.callback =
        ({ s with timers := s.timers.clear u.id } : Tab).invalidateDynamic "status_stale"
          .unavailable := by
      rw [h.timed.generation u hu]
      exact if_pos rfl
    rw [← Option.some.inj hw, hrun]
    exact (h.displayed.covered.invalidateDynamic formats "status_stale" .unavailable).dom

theorem display_of_run_answered : ∃ s : Tab, s.isPolled = true ∧
    s.dom = blankPage.apply (s.shown.writes plainFormats) ∧
      ∀ a started rendered, s.shown = .polled a started rendered →
        ∃ t ∈ s.timers.pending, t.due = rendered + a.status.val.validForMs ∧
          (t.due ≤ s.now → (Tab.step plainFormats (.fire t.id) s).isSome = true) ∧
          ∀ w, Tab.step plainFormats (.fire t.id) s = some w →
            w.dom = blankPage.apply (Web.invalidateDynamic "status_stale" .unavailable) := by
  obtain ⟨s, run, hpolled⟩ := answeredPoll_runs
  exact ⟨s, hpolled, display_of_run run⟩

/-- **The age of what is shown.** When the event loop is never late by more than `late`, what is
shown of a poll was asked for no longer ago than the timeout of its requests and its validity, twice
the lateness added; and the page has called `refreshState` within the last `longestPoll late`, as it
had before each call. -/
theorem age_of_run {late : ℚ} (hlate : 0 ≤ late) {es : List TabEvent}
    (run : (tab html formats).Run (Prompt late) (load html) es s) :
    (∀ a started rendered, s.shown = .polled a started rendered →
      s.now ≤ started + FETCH_TIMEOUT_MS + a.status.val.validForMs + 2 * late) ∧
    (∀ c ∈ s.calls.head?, s.now ≤ c + longestPoll late) ∧
    s.calls.IsChain fun later earlier => later ≤ earlier + longestPoll late := by
  obtain ⟨t, fresh, h, hontime⟩ := onTime_of_run hlate run
  refine ⟨?_, ?_, hontime.gaps⟩
  · intro a started rendered hshown
    obtain ⟨u, hu, hdue⟩ := h.displayed.due a started rendered hshown
    have hnow := hontime.fresh u hu
    have hrendered := hontime.shown a started rendered hshown
    rw [hdue] at hnow
    linarith
  · intro c hc
    exact hontime.loop.trans (hontime.due c hc)

theorem age_of_run_answered : ∃ s : Tab, s.isPolled = true ∧
    (∀ a started rendered, s.shown = .polled a started rendered →
      s.now ≤ started + FETCH_TIMEOUT_MS + a.status.val.validForMs + 2 * 0) ∧
    (∀ c ∈ s.calls.head?, s.now ≤ c + longestPoll 0) ∧
    s.calls.IsChain fun later earlier => later ≤ earlier + longestPoll 0 := by
  obtain ⟨s, run, hpolled⟩ := answeredPoll_runs
  exact ⟨s, hpolled, age_of_run (le_refl 0) (run.mono fun _ _ => of_decide_eq_true)⟩

def refreshTimers (s : Tab) : List (Timer ℚ Callback) :=
  s.timers.pending.filter fun t => t.callback = .refreshState

/-- There is one timer of a poll or one poll. -/
theorem refreshTimers_length (h : Good html formats s t fresh) :
    s.refreshTimers.length + s.flights.length = 1 := by
  -- the loop's timer is the only one that may be set to poll
  have hmem : ∀ u, u ∈ s.refreshTimers ↔ u = t ∧ t.callback = .refreshState := by
    intro u
    unfold refreshTimers
    rw [List.mem_filter, h.timed.pending, decide_eq_true_eq]
    constructor
    · intro hu
      rcases hu.1 with hloop | hfresh
      · rw [← Option.some.inj hloop]
        exact ⟨rfl, Option.some.inj hloop ▸ hu.2⟩
      · have hstale := h.timed.generation u hfresh
        rw [hu.2] at hstale
        cases hstale
    · intro hu
      rw [hu.1]
      exact ⟨.inl rfl, hu.2⟩
  -- either the page waits for its next poll, or the poll is under way and the timer is its timeout
  cases h.loop with
  | waiting hcallback hpoll hflights =>
    have hnodup : s.refreshTimers.Nodup := s.timers.distinct.of_map.filter _
    have hperm : s.refreshTimers.Perm [t] := by
      apply (List.perm_ext_iff_of_nodup hnodup (List.nodup_singleton t)).mpr
      intro u
      rw [hmem, List.mem_singleton]
      exact and_iff_left hcallback
    rw [hperm.length_eq, hflights]
    rfl
  | polling hcallback hid hflights hopen =>
    have hnone : s.refreshTimers = [] := by
      apply List.eq_nil_iff_forall_not_mem.mpr
      intro u hu
      have hrefresh := ((hmem u).mp hu).2
      rw [hcallback] at hrefresh
      cases hrefresh
    rw [hnone, hflights]
    rfl

/-- **One poll at a time.** In every run there is either one poll under way and no timer of the next,
or one such timer and no poll: the polls never stop and never double. Two calls of `refreshState`
are at least `MIN_POLL_MS` apart, so that an interval holds no more of them than fit. -/
theorem calls_of_run {ok : Tab → TabEvent → Prop} {es : List TabEvent}
    (run : (tab html formats).Run ok (load html) es s) :
    s.refreshTimers.length + s.flights.length = 1 ∧
      s.calls.Pairwise (fun later earlier => earlier + MIN_POLL_MS ≤ later) ∧
      ∀ start length : ℚ, 0 ≤ length →
        (Pacing.inWindow start length s.calls).length ≤ ⌊length / MIN_POLL_MS⌋₊ + 1 := by
  obtain ⟨t, fresh, h⟩ := good_of_run run
  refine ⟨refreshTimers_length h, h.spaced, ?_⟩
  intro start length hlength
  set window := Pacing.inWindow start length s.calls with hwindow
  -- the calls are kept latest first; the pacing bound takes them in order
  have hspaced : window.reverse.Pairwise fun earlier later => earlier + MIN_POLL_MS ≤ later :=
    List.pairwise_reverse.mpr (h.spaced.sublist List.filter_sublist)
  have hin : ∀ c ∈ window.reverse, start ≤ c ∧ c ≤ start + length := by
    intro c hc
    exact of_decide_eq_true (List.mem_filter.mp (List.mem_reverse.mp hc)).2
  have hle := Pacing.length_mul_le hspaced (fun c hc => (hin c hc).1) (fun c hc => (hin c hc).2)
    (show start ≤ start + length + 250 by linarith)
  rw [List.length_reverse] at hle
  have hpos : (0 : ℚ) < MIN_POLL_MS := by
    show (0 : ℚ) < 250
    norm_num
  -- the number of gaps in the window is at most the window's length over the least gap
  have hdiv : (window.length : ℚ) ≤ length / MIN_POLL_MS + (1 : ℕ) := by
    rw [← sub_le_iff_le_add, le_div_iff₀ hpos, sub_mul]
    push_cast
    linarith
  rw [← Nat.floor_add_natCast (by positivity)]
  exact Nat.le_floor hdiv

theorem calls_of_run_answered : ∃ s : Tab, s.isPolled = true ∧
    s.refreshTimers.length + s.flights.length = 1 ∧
      s.calls.Pairwise (fun later earlier => earlier + MIN_POLL_MS ≤ later) ∧
      ∀ start length : ℚ, 0 ≤ length →
        (Pacing.inWindow start length s.calls).length ≤ ⌊length / MIN_POLL_MS⌋₊ + 1 := by
  obtain ⟨s, run, hpolled⟩ := answeredPoll_runs
  exact ⟨s, hpolled, calls_of_run run⟩

end Tab

end Web

end Rave
