import RaveDeployment.Web.NetworkPage

/-!
# What the network page says of a transition

The page keeps one deadline for both kinds of request. `Misread` and `Forgotten` are the steps at
which it puts up a text that is not true, `Overtaken` those at which a text that was true stays
though it is no longer. `truthful_of_run`: without them the page tells the truth in every state;
`truthful_iff` and `shown_iff`: no other step does harm.
-/

namespace Rave

namespace Web

/-- The rendered status has the mode that the last request asked for. -/
def Session.Reached (s : Session) (x : Sample) : Prop :=
  ∃ id a, s.latest = some (id, a) ∧ x.status.mode = a.mode

/-- The last request is for a station, and the status was sampled after the server accepted it. -/
def Session.Answers (s : Session) (x : Sample) : Prop :=
  ∃ id, s.latest = some (id, .station) ∧ id ∈ x.accepted

/-- What says that the station is connected has seen the answer to the request. -/
def Session.ConfirmedTruly (s : Session) : Prop :=
  s.page.message = .stationConfirmed → ∃ x, s.confirmedBy = some x ∧ s.Answers x

/-- What says that it cannot be confirmed has not seen it. -/
def Session.UnableTruly (s : Session) : Prop :=
  s.page.message = .unableToConfirm → ∀ x ∈ s.rendered, ¬ s.Reached x

/-- What the page shows is true. -/
structure Session.Truthful (s : Session) : Prop where
  confirmed : s.ConfirmedTruly
  unable : s.UnableTruly

/-- What a step puts up is true. -/
structure Session.ShownTruly (s t : Session) : Prop where
  confirmed : t.ConfirmedTruly
  unable : s.page.message ≠ .unableToConfirm → t.UnableTruly

/-! ## The steps that mislead

The three ways in which a step puts up what is not true. Each is a condition on the event and the
state before it. -/

def Session.Expired (s : Session) : Prop :=
  ∃ deadline, s.page.networkActionDeadline = some deadline ∧ deadline ≤ s.now

/-- A status is taken for the end of a request that it does not answer. -/
def Session.Misread (s : Session) : Event → Prop
  | .render => ∃ x, s.poll = .answered x ∧ Confirms x.status s.page ∧ ¬ s.Answers x
  | _ => False

/-- Rendering the status neither ends the request nor reports a failure. -/
def Session.Ignores (s : Session) (x : Sample) : Prop :=
  ¬ Confirms x.status s.page ∧ x.status.failure = none

/-- The deadline is found to have passed though the mode asked for has been rendered. -/
def Session.Forgotten (s : Session) : Event → Prop
  | .render => ∃ x, s.poll = .answered x ∧ s.Ignores x ∧ s.Expired ∧
      ∃ y ∈ x :: s.rendered, s.Reached y
  | .pollFails => s.poll ≠ .idle ∧ s.Expired ∧ ∃ y ∈ s.rendered, s.Reached y
  | _ => False

/-- The mode asked for is rendered while the page says that it cannot confirm it. -/
def Session.Overtaken (s : Session) : Event → Prop
  | .render => ∃ x, s.poll = .answered x ∧ s.Ignores x ∧
      s.page.message = .unableToConfirm ∧ s.Reached x
  | _ => False

/-! ## One step

What a step does to the message, and to what the message is judged by. -/

/-- Neither of the two texts that speak of the end of a transition. -/
def Message.neutral : Message → Bool
  | .unableToConfirm | .stationConfirmed => false
  | _ => true

/-- A neutral message is neither of the two. -/
theorem Message.ne_of_neutral {m : Message} (h : m.neutral = true) :
    m ≠ .unableToConfirm ∧ m ≠ .stationConfirmed := by
  constructor
  · intro heq
    rw [heq] at h
    cases h
  · intro heq
    rw [heq] at h
    cases h

def Event.isPoll : Event → Bool
  | .render | .pollFails => true
  | _ => false

/-- What a step can do to what the page shows, and to what it is judged by. -/
inductive Session.Effect (s : Session) : Event → Session → Prop where
  | same {e : Event} {t : Session} (he : e.isPoll = false)
      (hmessage : t.page.message = s.page.message)
      (hdeadline : t.page.networkActionDeadline = s.page.networkActionDeadline)
      (hlatest : t.latest = s.latest) (hrendered : t.rendered = s.rendered)
      (hconfirmed : t.confirmedBy = s.confirmedBy) : Effect s e t
  | neutral {e : Event} {t : Session} (he : e.isPoll = false)
      (hmessage : t.page.message.neutral = true)
      (hrest : t.rendered = [] ∨ t.rendered = s.rendered ∧ t.latest = s.latest ∧
        (t.page.networkActionDeadline = s.page.networkActionDeadline ∨
          t.page.networkActionDeadline = none)) : Effect s e t
  | render {x : Sample} {t : Session} (hpoll : s.poll = .answered x)
      (hpage : t.page = renderNetworkStatus s.now x.status s.page) (hlatest : t.latest = s.latest)
      (hrendered : t.rendered = x :: s.rendered)
      (hconfirmed : t.confirmedBy = if Confirms x.status s.page then some x else s.confirmedBy) :
      Effect s .render t
  | pollFails {t : Session} (hpoll : s.poll ≠ .idle)
      (hpage : t.page = updateTransitionMessage s.now s.page) (hlatest : t.latest = s.latest)
      (hrendered : t.rendered = s.rendered) (hconfirmed : t.confirmedBy = s.confirmedBy) :
      Effect s .pollFails t

/-- An action comes to its end. -/
theorem effect_of_complete {s : Session} (id : Nat) (ok : Bool) (a : NetworkAction) :
    s.Effect (.complete id ok)
      { s with page := a.complete ok s.page, pending := s.pending.erase id } := by
  cases a with
  | station =>
    cases ok with
    | true => exact .neutral rfl rfl (Or.inr ⟨rfl, rfl, Or.inl rfl⟩)
    | false => exact .neutral rfl rfl (Or.inr ⟨rfl, rfl, Or.inr rfl⟩)
  | provisioning =>
    cases ok with
    | true => exact .same rfl rfl rfl rfl rfl rfl
    | false => exact .neutral rfl rfl (Or.inr ⟨rfl, rfl, Or.inr rfl⟩)

/-- The inversion lemma of the session. -/
theorem effect_of_step {s t : Session} {e : Event} (h : Session.step e s = some t) :
    s.Effect e t := by
  cases e with
  | wait ms =>
    obtain ⟨-, ht⟩ := Option.ite_none_right_eq_some.mp h
    rw [← Option.some.inj ht]
    exact .same rfl rfl rfl rfl rfl rfl
  | request a =>
    obtain ⟨-, ht⟩ := Option.ite_none_right_eq_some.mp h
    rw [← Option.some.inj ht]
    -- a request forgets what has been rendered before it
    refine .neutral rfl ?_ (Or.inl rfl)
    cases a <;> rfl
  | accept id =>
    obtain ⟨-, ht⟩ := Option.ite_none_right_eq_some.mp h
    rw [← Option.some.inj ht]
    exact .same rfl rfl rfl rfl rfl rfl
  | complete id ok =>
    obtain ⟨-, ht⟩ := Option.ite_none_right_eq_some.mp h
    obtain ⟨a, -, rfl⟩ := Option.map_eq_some_iff.mp ht
    exact effect_of_complete id ok a
  | scan =>
    obtain ⟨-, ht⟩ := Option.ite_none_left_eq_some.mp h
    rw [← Option.some.inj ht]
    exact .neutral rfl rfl (Or.inr ⟨rfl, rfl, Or.inl rfl⟩)
  | scanned networks =>
    obtain ⟨-, ht⟩ := Option.ite_none_right_eq_some.mp h
    rw [← Option.some.inj ht]
    refine .neutral rfl ?_ (Or.inr ⟨rfl, rfl, Or.inl rfl⟩)
    rcases networks with _ | _ | n <;> rfl
  | poll =>
    simp only [Session.step] at h
    split at h
    · obtain ⟨-, ht⟩ := Option.ite_none_left_eq_some.mp h
      rw [← Option.some.inj ht]
      exact .same rfl rfl rfl rfl rfl rfl
    · cases h
  | sample status =>
    simp only [Session.step] at h
    split at h
    · rw [← Option.some.inj h]
      exact .same rfl rfl rfl rfl rfl rfl
    · cases h
  | render =>
    simp only [Session.step] at h
    split at h
    · next x hpoll =>
      rw [← Option.some.inj h]
      exact .render hpoll rfl rfl rfl rfl
    · cases h
  | pollEnds =>
    simp only [Session.step] at h
    split at h
    · rw [← Option.some.inj h]
      exact .same rfl rfl rfl rfl rfl rfl
    · cases h
  | pollFails =>
    simp only [Session.step] at h
    split at h
    · cases h
    · next hpoll =>
      rw [← Option.some.inj h]
      exact .pollFails hpoll rfl rfl rfl rfl

/-! ## Invariant

While a deadline runs, neither of the two messages is shown. -/

/-- While a deadline runs, the page shows neither text, and nothing that has been rendered was the
end of a request for a station. -/
structure Session.Consistent (s : Session) : Prop where
  message : s.page.networkActionDeadline ≠ none → s.page.message ≠ .unableToConfirm
  unreached : s.page.networkActionDeadline ≠ none → ∀ id, s.latest = some (id, .station) →
    ∀ x ∈ s.rendered, ¬ s.Reached x

/-- Whether a mode was asked for depends on the last request. -/
theorem reached_iff {s t : Session} (h : t.latest = s.latest) (x : Sample) :
    t.Reached x ↔ s.Reached x := by
  unfold Session.Reached
  rw [h]

theorem answers_iff {s t : Session} (h : t.latest = s.latest) (x : Sample) :
    t.Answers x ↔ s.Answers x := by
  unfold Session.Answers
  rw [h]

/-- Where the deadline survives a look at the clock, the transition is in progress. -/
theorem updateTransitionMessage_running {now : ℚ} {p : Page}
    (h : (updateTransitionMessage now p).networkActionDeadline ≠ none) :
    (updateTransitionMessage now p).message = .inProgress ∧ p.networkActionDeadline ≠ none := by
  unfold updateTransitionMessage at h ⊢
  split
  · next hnone =>
    rw [hnone] at h
    exact absurd hnone h
  · next deadline hsome =>
    rw [hsome] at h ⊢
    dsimp only at h
    split
    · exact ⟨rfl, Option.some_ne_none _⟩
    · next hpassed =>
      rw [if_neg hpassed] at h
      exact absurd rfl h

/-- A deadline that runs on after a rendering was not confirmed. -/
theorem renderNetworkStatus_running {now : ℚ} {n : NetworkStatus} {p : Page}
    (h : (renderNetworkStatus now n p).networkActionDeadline ≠ none) :
    (renderNetworkStatus now n p).message = .inProgress ∧ p.networkActionDeadline ≠ none ∧
      ¬ Confirms n p := by
  unfold renderNetworkStatus at h ⊢
  by_cases hconfirms : Confirms n p
  · rw [if_pos hconfirms] at h
    exact absurd rfl h
  · rw [if_neg hconfirms] at h ⊢
    split
    · next heq =>
      rw [heq] at h
      exact absurd rfl h
    · next heq =>
      rw [heq] at h
      obtain ⟨hmessage, hdeadline⟩ := updateTransitionMessage_running h
      exact ⟨hmessage, hdeadline, hconfirms⟩

/-- A step keeps the invariant. -/
theorem Session.Effect.consistent {s t : Session} {e : Event} (h : s.Effect e t)
    (hs : s.Consistent) : t.Consistent := by
  cases h with
  -- what the page remembers and its deadline are as before
  | same _ hmessage hdeadline hlatest hrendered _ =>
    constructor
    · rw [hmessage, hdeadline]
      exact hs.message
    · intro hrunning id hid x hx
      rw [reached_iff hlatest]
      rw [hdeadline] at hrunning
      rw [hrendered] at hx
      exact hs.unreached hrunning id (hlatest ▸ hid) x hx
  | neutral _ hmessage hrest =>
    constructor
    · intro _
      exact (Message.ne_of_neutral hmessage).1
    · intro hrunning id hid x hx
      -- either nothing is rendered any more, or what was rendered is as it was
      rcases hrest with hnil | ⟨hrendered, hlatest, hdeadline⟩
      · rw [hnil] at hx
        exact absurd hx List.not_mem_nil
      · rcases hdeadline with hdeadline | hdeadline
        · rw [reached_iff hlatest]
          rw [hdeadline] at hrunning
          rw [hrendered] at hx
          exact hs.unreached hrunning id (hlatest ▸ hid) x hx
        · exact absurd hdeadline hrunning
  | @render x₀ _ hpoll hpage hlatest hrendered _ =>
    -- while the deadline runs, the message is that of a request under way
    constructor
    · intro hrunning
      rw [hpage] at hrunning ⊢
      rw [(renderNetworkStatus_running hrunning).1]
      exact Message.noConfusion
    · intro hrunning id hid x hx
      rw [hpage] at hrunning
      obtain ⟨-, hdeadline, hconfirms⟩ := renderNetworkStatus_running hrunning
      rw [hlatest] at hid
      rw [reached_iff hlatest]
      rw [hrendered] at hx
      rcases List.mem_cons.mp hx with rfl | hx
      · -- a status that ends the request would have been taken for its end
        intro hreached
        obtain ⟨id', a, heq, hmode⟩ := hreached
        rw [hid] at heq
        rw [← (Prod.mk.inj (Option.some.inj heq)).2] at hmode
        exact hconfirms ⟨hmode, hdeadline⟩
      · exact hs.unreached hdeadline id hid x hx
  | pollFails _ hpage hlatest hrendered _ =>
    constructor
    · intro hrunning
      rw [hpage] at hrunning ⊢
      rw [(updateTransitionMessage_running hrunning).1]
      exact Message.noConfusion
    · intro hrunning id hid x hx
      rw [hpage] at hrunning
      rw [reached_iff hlatest]
      rw [hrendered] at hx
      exact hs.unreached (updateTransitionMessage_running hrunning).2 id (hlatest ▸ hid) x hx

theorem consistent_init : networkPage.init.Consistent :=
  ⟨fun h => absurd rfl h, fun h => absurd rfl h⟩

/-! ## What a step shows

Which step puts up which message, and when it is true. -/

/-- When the page gives up on an action. -/
theorem updateTransitionMessage_unable {now : ℚ} {p : Page} :
    (updateTransitionMessage now p).message = .unableToConfirm ↔
      (∃ deadline, p.networkActionDeadline = some deadline ∧ deadline ≤ now) ∨
        p.networkActionDeadline = none ∧ p.message = .unableToConfirm := by
  unfold updateTransitionMessage
  cases hdeadline : p.networkActionDeadline with
  | none => simp
  | some deadline =>
    by_cases hrunning : now < deadline
    · simp [hrunning]
    · simp [hrunning, not_lt.mp hrunning]

theorem updateTransitionMessage_confirmed {now : ℚ} {p : Page}
    (h : (updateTransitionMessage now p).message = .stationConfirmed) :
    p.message = .stationConfirmed := by
  unfold updateTransitionMessage at h
  split at h
  · exact h
  · split at h
    · cases h
    · cases h

/-- When a rendering leaves that message. -/
theorem renderNetworkStatus_unable {now : ℚ} {n : NetworkStatus} {p : Page} :
    (renderNetworkStatus now n p).message = .unableToConfirm ↔
      ¬ Confirms n p ∧ n.failure = none ∧
        (updateTransitionMessage now p).message = .unableToConfirm := by
  unfold renderNetworkStatus
  by_cases hconfirms : Confirms n p
  · simp [hconfirms]
  · cases hfailure : n.failure with
    | some lastError => simp [hconfirms]
    | none => simp [hconfirms]

/-- A rendering that confirms nothing leaves what was confirmed. -/
theorem renderNetworkStatus_confirmed {now : ℚ} {n : NetworkStatus} {p : Page}
    (h : (renderNetworkStatus now n p).message = .stationConfirmed) (hn : ¬ Confirms n p) :
    p.message = .stationConfirmed := by
  unfold renderNetworkStatus at h
  rw [if_neg hn] at h
  split at h
  · cases h
  · exact updateTransitionMessage_confirmed h

theorem not_misread {s : Session} {e : Event} (he : e.isPoll = false) : ¬ s.Misread e := by
  cases e with
  | render => cases he
  | _ => exact not_false

/-- Only the end of a poll forgets. -/
theorem not_forgotten {s : Session} {e : Event} (he : e.isPoll = false) : ¬ s.Forgotten e := by
  cases e with
  | render => cases he
  | pollFails => cases he
  | _ => exact not_false

theorem not_overtaken {s : Session} {e : Event} (he : e ≠ .render) : ¬ s.Overtaken e := by
  cases e with
  | render => exact absurd rfl he
  | _ => exact not_false

section Step

variable {s t : Session} {e : Event} (h : s.Effect e t)
include h

/-- The text that confirms is true after a step, unless the step misreads a status. -/
theorem Session.Effect.confirmedTruly_iff (hs : s.ConfirmedTruly) :
    t.ConfirmedTruly ↔ ¬ s.Misread e := by
  -- a text that stays up is as true as it was
  have hkept : t.latest = s.latest → t.confirmedBy = s.confirmedBy →
      (t.page.message = .stationConfirmed → s.page.message = .stationConfirmed) →
      t.ConfirmedTruly := by
    intro hlatest hconfirmed hmessage hshown
    obtain ⟨x, hx, hanswers⟩ := hs (hmessage hshown)
    exact ⟨x, hconfirmed.trans hx, (answers_iff hlatest x).mpr hanswers⟩
  cases h with
  | same he hmessage _ hlatest _ hconfirmed =>
    have htrue := hkept hlatest hconfirmed (fun hshown => hmessage ▸ hshown)
    exact iff_of_true htrue (not_misread he)
  | neutral he hmessage _ =>
    have htrue : t.ConfirmedTruly := fun hshown => absurd hshown (Message.ne_of_neutral hmessage).2
    exact iff_of_true htrue (not_misread he)
  | @render x _ hpoll hpage hlatest _ hconfirmed =>
    by_cases hconfirms : Confirms x.status s.page
    · rw [if_pos hconfirms] at hconfirmed
      have hshown : t.page.message = .stationConfirmed := by
        rw [hpage, renderNetworkStatus, if_pos hconfirms]
      constructor
      · intro htrue hmisread
        obtain ⟨x', hx', -, hstale⟩ := hmisread
        obtain ⟨y, hy, hanswers⟩ := htrue hshown
        rw [hpoll] at hx'
        rw [hconfirmed] at hy
        rw [← Poll.answered.inj hx'] at hstale
        rw [← Option.some.inj hy, answers_iff hlatest] at hanswers
        exact hstale hanswers
      · intro hread _
        refine ⟨x, hconfirmed, (answers_iff hlatest x).mpr ?_⟩
        by_contra hstale
        exact hread ⟨x, hpoll, hconfirms, hstale⟩
    · rw [if_neg hconfirms] at hconfirmed
      have htrue := hkept hlatest hconfirmed fun hshown =>
        renderNetworkStatus_confirmed (hpage ▸ hshown) hconfirms
      refine iff_of_true htrue ?_
      intro hmisread
      obtain ⟨x', hx', hconfirms', -⟩ := hmisread
      rw [hpoll] at hx'
      rw [← Poll.answered.inj hx'] at hconfirms'
      exact hconfirms hconfirms'
  | pollFails _ hpage hlatest _ hconfirmed =>
    have htrue := hkept hlatest hconfirmed fun hshown =>
      updateTransitionMessage_confirmed (hpage ▸ hshown)
    exact iff_of_true htrue not_false

omit h in
/-- While a deadline has only passed, nobody has been told. -/
theorem Session.Expired.shown (hexpired : s.Expired) (hs : s.Consistent) :
    s.page.message ≠ .unableToConfirm := by
  obtain ⟨deadline, hdeadline, -⟩ := hexpired
  apply hs.message
  rw [hdeadline]
  exact Option.some_ne_none _

/-- When the text that gives up is on the page after a status is rendered. -/
theorem Session.Effect.unable_of_render {x : Sample} (hpoll : s.poll = .answered x)
    (he : e = .render) (hs : s.Consistent) : t.page.message = .unableToConfirm ↔
      s.Ignores x ∧ (s.Expired ∨ s.page.message = .unableToConfirm) := by
  cases h with
  | same hplain _ _ _ _ _ =>
    rw [he] at hplain
    cases hplain
  | neutral hplain _ _ =>
    rw [he] at hplain
    cases hplain
  | pollFails => cases he
  | @render x' _ hpoll' hpage _ _ _ =>
    rw [hpoll] at hpoll'
    rw [hpage, ← Poll.answered.inj hpoll', renderNetworkStatus_unable,
      updateTransitionMessage_unable, ← and_assoc]
    apply and_congr Iff.rfl
    apply or_congr Iff.rfl
    constructor
    · intro hshown
      exact hshown.2
    · intro hshown
      refine ⟨?_, hshown⟩
      by_contra hrunning
      exact hs.message hrunning hshown

/-- The text that gives up is true after a step, unless the mode asked for has been rendered before
the deadline is found to have passed, or is rendered after that. -/
theorem Session.Effect.unableTruly_iff (hs : s.Consistent) (htrue : s.UnableTruly) :
    t.UnableTruly ↔ ¬(s.Forgotten e ∨ s.Overtaken e) := by
  have heffect := h
  cases h with
  | same he hmessage _ hlatest hrendered _ =>
    refine iff_of_true ?_ (not_or.mpr ⟨not_forgotten he, not_overtaken ?_⟩)
    · intro hshown x hx
      rw [reached_iff hlatest]
      rw [hmessage] at hshown
      rw [hrendered] at hx
      exact htrue hshown x hx
    · intro heq
      rw [heq] at he
      cases he
  | neutral he hmessage _ =>
    refine iff_of_true ?_ (not_or.mpr ⟨not_forgotten he, not_overtaken ?_⟩)
    · intro hshown
      exact absurd hshown (Message.ne_of_neutral hmessage).1
    · intro heq
      rw [heq] at he
      cases he
  | @render x _ hpoll _ hlatest hrendered _ =>
    -- the text is up after rendering where it was ignored, and late or up before
    have hunable := heffect.unable_of_render hpoll rfl hs
    constructor
    · intro htruly hbad
      rcases hbad with hforgotten | hovertaken
      · obtain ⟨x', hx', hignores, hexpired, y, hy, hreached⟩ := hforgotten
        rw [hpoll] at hx'
        rw [← Poll.answered.inj hx'] at hignores hy
        exact htruly (hunable.mpr ⟨hignores, Or.inl hexpired⟩) y (hrendered ▸ hy)
          ((reached_iff hlatest y).mpr hreached)
      · obtain ⟨x', hx', hignores, hshown, hreached⟩ := hovertaken
        rw [hpoll] at hx'
        rw [← Poll.answered.inj hx'] at hignores hreached
        exact htruly (hunable.mpr ⟨hignores, Or.inr hshown⟩) x
          (hrendered ▸ List.mem_cons_self) ((reached_iff hlatest x).mpr hreached)
    · intro hgood hshown y hy hreached
      rw [reached_iff hlatest] at hreached
      rw [hrendered] at hy
      obtain ⟨hignores, hexpired | hstays⟩ := hunable.mp hshown
      · exact hgood (Or.inl ⟨x, hpoll, hignores, hexpired, y, hy, hreached⟩)
      · rcases List.mem_cons.mp hy with rfl | hy
        · exact hgood (Or.inr ⟨y, hpoll, hignores, hstays, hreached⟩)
        · exact htrue hstays y hy hreached
  | pollFails hpoll hpage hlatest hrendered _ =>
    constructor
    · intro htruly hbad
      obtain ⟨-, hexpired, y, hy, hreached⟩ := hbad.resolve_right not_false
      have hshown : t.page.message = .unableToConfirm := by
        rw [hpage]
        exact updateTransitionMessage_unable.mpr (Or.inl hexpired)
      exact htruly hshown y (hrendered ▸ hy) ((reached_iff hlatest y).mpr hreached)
    · intro hgood hshown y hy hreached
      rw [reached_iff hlatest] at hreached
      rw [hrendered] at hy
      rw [hpage] at hshown
      rcases updateTransitionMessage_unable.mp hshown with hexpired | ⟨-, hstays⟩
      · exact hgood (Or.inl ⟨hpoll, hexpired, y, hy, hreached⟩)
      · exact htrue hstays y hy hreached

/-- What a step puts up is true, unless it forgets what has been rendered. -/
theorem Session.Effect.shownUnable_iff (hs : s.Consistent) :
    (s.page.message ≠ .unableToConfirm → t.UnableTruly) ↔ ¬ s.Forgotten e := by
  by_cases hstays : s.page.message = .unableToConfirm
  · refine iff_of_true (fun hne => absurd hstays hne) ?_
    intro hforgotten
    have hexpired : s.Expired := by
      cases e with
      | render =>
        obtain ⟨x, -, -, hexpired, -⟩ := hforgotten
        exact hexpired
      | pollFails => exact hforgotten.2.1
      | _ => exact hforgotten.elim
    exact hexpired.shown hs hstays
  · have hovertaken : ¬ s.Overtaken e := by
      intro hovertaken
      cases e with
      | render =>
        obtain ⟨x, -, -, hshown, -⟩ := hovertaken
        exact hstays hshown
      | _ => exact hovertaken
    have htruly := h.unableTruly_iff hs fun hshown => absurd hshown hstays
    rw [or_iff_left hovertaken] at htruly
    rw [← htruly]
    exact ⟨fun himp => himp hstays, fun hunable _ => hunable⟩

end Step

/-! ## Runs

The page is truthful after every run without a misleading step, and after a misleading one it is
not. -/

/-- A step after which the page says what is not true. -/
def Session.Misleads (s : Session) (e : Event) : Prop :=
  s.Misread e ∨ s.Forgotten e ∨ s.Overtaken e

/-- From a truthful page, a step keeps it truthful exactly when it does not mislead. -/
theorem Session.Effect.truthful_iff {s t : Session} {e : Event} (h : s.Effect e t)
    (hs : s.Consistent) (htrue : s.Truthful) : t.Truthful ↔ ¬ s.Misleads e := by
  have hconfirmed := h.confirmedTruly_iff htrue.confirmed
  have hunable := h.unableTruly_iff hs htrue.unable
  rw [Session.Misleads, not_or, ← hconfirmed, ← hunable]
  exact ⟨fun htruthful => ⟨htruthful.confirmed, htruthful.unable⟩, fun hboth => ⟨hboth.1, hboth.2⟩⟩

theorem truthful_init : networkPage.init.Truthful :=
  ⟨fun h => Message.noConfusion h, fun h => Message.noConfusion h⟩

/-- Without a misleading step the page stays truthful. -/
theorem truthful_of_run {as : List Event} {t : Session}
    (run : networkPage.Run (fun s e => ¬ s.Misleads e) networkPage.init as t) :
    t.Consistent ∧ t.Truthful := by
  apply run.invariant ⟨consistent_init, truthful_init⟩
  intro s e t hs hgood hstep
  have heffect := effect_of_step hstep
  exact ⟨heffect.consistent hs.1, (heffect.truthful_iff hs.1 hs.2).mpr hgood⟩

/-- The deadline of a request for a station does not outlive its end. -/
theorem Session.Forgotten.provisioning {s : Session} {e : Event} (hs : s.Consistent)
    (h : s.Forgotten e) : ∃ id, s.latest = some (id, .provisioning) := by
  -- a deadline that has passed was set
  have hdeadline : ∀ {s : Session}, s.Expired → s.page.networkActionDeadline ≠ none := by
    intro s hexpired
    obtain ⟨deadline, hsome, -⟩ := hexpired
    rw [hsome]
    exact Option.some_ne_none _
  cases e with
  | render =>
    obtain ⟨x, -, hignores, hexpired, y, hy, hreached⟩ := h
    obtain ⟨id, a, hlatest, hmode⟩ := hreached
    cases a with
    | provisioning => exact ⟨id, hlatest⟩
    | station =>
      -- a station that was asked for and reached is not forgotten
      rcases List.mem_cons.mp hy with rfl | hy
      · exact absurd ⟨hmode, hdeadline hexpired⟩ hignores.1
      · exact absurd ⟨id, .station, hlatest, hmode⟩
          (hs.unreached (hdeadline hexpired) id hlatest y hy)
  | pollFails =>
    obtain ⟨-, hexpired, y, hy, hreached⟩ := h
    obtain ⟨id, a, hlatest, hmode⟩ := hreached
    cases a with
    | provisioning => exact ⟨id, hlatest⟩
    | station =>
      exact absurd ⟨id, .station, hlatest, hmode⟩
        (hs.unreached (hdeadline hexpired) id hlatest y hy)
  | _ => exact h.elim

/-- **The page tells the truth in every state of a run none of whose steps misleads**, and in no
other run does it always. What it puts up is true when it is put up exactly in the runs that misread
no status and do not forget a rendered one, which only a request for provisioning makes it do. -/
theorem page_truthful (as : List Event) (t : Session) :
    (networkPage.Run (fun s e => ¬ s.Misleads e) networkPage.init as t → t.Truthful) ∧
    (networkPage.Run (fun s e => ∀ t, networkPage.step e s = some t → t.Truthful)
        networkPage.init as t ↔
      networkPage.Run (fun s e => ¬ s.Misleads e) networkPage.init as t) ∧
    (networkPage.Run (fun s e => ∀ t, networkPage.step e s = some t → s.ShownTruly t)
        networkPage.init as t ↔
      networkPage.Run (fun s e => ¬(s.Misread e ∨ s.Forgotten e)) networkPage.init as t) ∧
    ∀ e, networkPage.Run (fun _ _ => True) networkPage.init as t → t.Forgotten e →
      ∃ id, t.latest = some (id, .provisioning) := by
  refine ⟨fun run => (truthful_of_run run).2, ?_, ?_, ?_⟩
  -- every message: a step from a truthful page misleads where its outcome is untrue
  · apply System.Run.iff_of_step (I := fun s => s.Consistent ∧ s.Truthful)
      ⟨consistent_init, truthful_init⟩
    · intro s e t hs htrue hstep
      exact ⟨(effect_of_step hstep).consistent hs.1, htrue t hstep⟩
    · intro s e t hs hstep
      rw [← (effect_of_step hstep).truthful_iff hs.1 hs.2]
      constructor
      · intro htrue
        exact htrue t hstep
      · intro htrue t' hstep'
        rw [hstep] at hstep'
        rw [← Option.some.inj hstep']
        exact htrue
  -- the messages as they are put up, for which a reached mode need not stay
  · apply System.Run.iff_of_step (I := fun s => s.Consistent ∧ s.ConfirmedTruly)
      ⟨consistent_init, truthful_init.confirmed⟩
    · intro s e t hs htrue hstep
      exact ⟨(effect_of_step hstep).consistent hs.1, (htrue t hstep).confirmed⟩
    · intro s e t hs hstep
      have heffect := effect_of_step hstep
      rw [not_or, ← heffect.confirmedTruly_iff hs.2, ← heffect.shownUnable_iff hs.1]
      constructor
      · intro htrue
        exact ⟨(htrue t hstep).confirmed, (htrue t hstep).unable⟩
      · intro htrue t' hstep'
        rw [hstep] at hstep'
        rw [← Option.some.inj hstep']
        exact ⟨htrue.1, htrue.2⟩
  · intro e run hforgotten
    have hconsistent : t.Consistent := by
      apply run.invariant consistent_init
      intro s e t hs _ hstep
      exact (effect_of_step hstep).consistent hs
    exact hforgotten.provisioning hconsistent

/-! ## Two runs

The two messages, each put up wrongly. -/

/-- A request for provisioning, and the status of the station that is still connected. -/
def stillConnected : List Event :=
  [.request .provisioning, .poll, .sample ⟨"station_connected", none⟩, .render]

/-- A request for provisioning that is carried out, and a poll that fails later. -/
def provisionedThenLost : List Event :=
  [.request .provisioning, .accept 0, .complete 0 true, .poll, .sample ⟨"provisioning_ap", none⟩,
    .render, .pollEnds, .wait 120000, .poll, .pollFails]

/-- What the page shows at the end of a list of events, the last request, and the modes rendered
since. -/
def shownAfter (as : List Event) : Option (Message × Option (Nat × NetworkAction) × List String) :=
  (networkPage.exec (fun _ _ => true) as networkPage.init).map fun t =>
    (t.page.message, t.latest, t.rendered.map fun x => x.status.mode)

/-- The old connection is shown as the new one. -/
theorem shownAfter_stillConnected :
    shownAfter stillConnected
      = some (.stationConfirmed, some (0, .provisioning), ["station_connected"]) := by
  decide

/-- The mode that was asked for has been seen, and yet cannot be confirmed. -/
theorem shownAfter_provisionedThenLost :
    shownAfter provisionedThenLost
      = some (.unableToConfirm, some (0, .provisioning), ["provisioning_ap"]) := by
  decide +kernel

/-- **Neither text is always true.** -/
theorem not_page_truthful :
    (¬∀ as t, networkPage.Run (fun _ _ => True) networkPage.init as t → t.ConfirmedTruly) ∧
    ¬∀ as t, networkPage.Run (fun _ _ => True) networkPage.init as t → t.UnableTruly := by
  constructor
  · intro hall
    obtain ⟨t, hexec, hshown⟩ := Option.map_eq_some_iff.mp shownAfter_stillConnected
    obtain ⟨hmessage, hrest⟩ := Prod.mk.inj hshown
    obtain ⟨x, -, id, hlatest, -⟩ := hall _ t
      ((System.run_of_exec hexec).mono fun _ _ _ => trivial) hmessage
    rw [(Prod.mk.inj hrest).1] at hlatest
    cases hlatest
  · intro hall
    obtain ⟨t, hexec, hshown⟩ := Option.map_eq_some_iff.mp shownAfter_provisionedThenLost
    obtain ⟨hmessage, hrest⟩ := Prod.mk.inj hshown
    obtain ⟨hlatest, hmodes⟩ := Prod.mk.inj hrest
    have hmem : "provisioning_ap" ∈ t.rendered.map fun x => x.status.mode := by
      rw [hmodes]
      exact List.mem_cons_self
    obtain ⟨x, hx, hmode⟩ := List.mem_map.mp hmem
    exact hall _ t ((System.run_of_exec hexec).mono fun _ _ _ => trivial) hmessage x hx
      ⟨0, .provisioning, hlatest, hmode⟩

end Web

end Rave
