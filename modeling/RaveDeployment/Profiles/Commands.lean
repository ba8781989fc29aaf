import RaveDeployment.Network.ScanText
import RaveDeployment.Profiles.Store

/-!
# Commands on the profiles

What each command does to NetworkManager's profiles and what it answers. Every command has one of
three outcomes: it is done, it fails without an effect, or it is reported failed although it took
effect (a timeout of `subprocess.run` becomes return code 124).

`execute` is the deterministic core, given a `Choice` of everything the surroundings decide;
`nmcliEnv` lets them choose. The `World` keeps the commands issued with their outcomes, so that a
theorem can say which of them failed.
-/

namespace Rave

open Prog

/-- A command is done, fails, or fails after it took effect. -/
inductive Outcome where
  | done
  | failed
  | failedAfter
  deriving DecidableEq

/-- A command and its outcome. -/
structure CommandEvent where
  command : Command
  outcome : Outcome
  deriving DecidableEq

/-- The profiles, and the commands so far. -/
structure World where
  store : ProfileStore
  log : List CommandEvent

/-- What is decided outside the program about one command. -/
structure Choice where
  outcome : Outcome
  /-- The UUID of the profile an `add` creates. -/
  created : Uuid
  /-- The return code of a command reported failed. -/
  code : { n : Int // n ≠ 0 }
  /-- What is printed where the profiles do not determine it. -/
  output : String

/-! ## Effect and answer

What a command does to the store, and what it answers, for each outcome. -/

/-- What the command does to the profiles. A modification of the security settings of a profile
changes nothing that is modelled. -/
def Command.effect (c : Command) (created : Uuid) (s : ProfileStore) : ProfileStore :=
  match c with
  | .addPending ssid =>
    if (s.get created).isSome then s
    else s.insert created { id := PENDING_PROFILE, autoconnect := false, ssid := ssid }
  | .setIdentity profile profileId => s.modify profile fun p => p.rename profileId
  | .deleteId profileId => s.eraseNamed profileId
  | .deleteUuid profile => s.erase profile
  | _ => s

/-- What `--get-values 802-11-wireless.ssid` prints: escaping is the default there. -/
def Profile.printedSsid (p : Profile) : String :=
  String.ofList (escapeField p.ssid.toList ++ ['\n'])

def onProfile (p : Option Profile) (answer : Profile → String) : CommandResult :=
  match p with
  | some p => ⟨0, answer p⟩
  | none => ⟨10, ""⟩

def Command.answer (c : Command) (choice : Choice) (s : ProfileStore) : CommandResult :=
  match c with
  | .addPending _ => if (s.get choice.created).isSome then ⟨10, ""⟩ else ⟨0, ""⟩
  | .setIdentity profile _ => onProfile (s.get profile) fun _ => ""
  | .upUuid profile => onProfile (s.get profile) fun _ => ""
  | .getProperty profile .connectionId => onProfile (s.get profile) fun p => p.id.text
  | .getProperty profile .connectionAutoconnect =>
    onProfile (s.get profile) fun p => if p.autoconnect then "yes" else "no"
  | .getSsid (some profile) => onProfile (s.get profile) Profile.printedSsid
  | .getSsid none => onProfile ((s.named SAVED_PROFILE).head?.bind s.get) Profile.printedSsid
  | .listProfiles => ⟨0, s.listing⟩
  | .wifiList => ⟨0, choice.output⟩
  | .showDevice => ⟨0, choice.output⟩
  | _ => ⟨0, ""⟩

/-- A command, with what the surroundings decide of it. -/
def execute (c : Command) (choice : Choice) (w : World) : CommandResult × World :=
  let log := w.log ++ [⟨c, choice.outcome⟩]
  match choice.outcome with
  | .done => (c.answer choice w.store, ⟨c.effect choice.created w.store, log⟩)
  | .failed => (⟨choice.code, choice.output⟩, ⟨w.store, log⟩)
  | .failedAfter => (⟨choice.code, choice.output⟩, ⟨c.effect choice.created w.store, log⟩)

def nmcli : Env RunnerCall RunnerAnswer World :=
  .sequential (fun _ _ => True) fun call w r w' =>
    ∃ choice, r = .ok (execute call.command choice w).1 ∧ w' = (execute call.command choice w).2

/-! ## Logs

What the log of a run tells: the faults, the writes, and which commands took effect. -/

/-- The commands that change the profiles or bring one of them up. -/
def Command.isWrite : Command → Bool
  | .addPending _ => true
  | .setIdentity _ _ => true
  | .deleteId _ => true
  | .deleteUuid _ => true
  | .upUuid _ => true
  | _ => false

def faults (l : List CommandEvent) : Nat :=
  l.countP fun e => e.outcome ≠ .done

/-- No command of the log changes a profile or brings one up. -/
def ReadsOnly (l : List CommandEvent) : Prop :=
  ∀ e ∈ l, e.command.isWrite = false

def Took (l : List CommandEvent) (c : Command) : Prop :=
  ∃ e ∈ l, e.command = c ∧ e.outcome ≠ .failed

@[simp] theorem faults_nil : faults [] = 0 := rfl

@[simp] theorem faults_append (l l' : List CommandEvent) :
    faults (l ++ l') = faults l + faults l' :=
  List.countP_append

@[simp] theorem faults_cons (e : CommandEvent) (l : List CommandEvent) :
    faults (e :: l) = (if e.outcome = .done then 0 else 1) + faults l := by
  rw [faults, List.countP_cons, faults, Nat.add_comm]
  by_cases h : e.outcome = .done <;> simp [h]

theorem faults_eq_zero {l : List CommandEvent} : faults l = 0 ↔ ∀ e ∈ l, e.outcome = .done := by
  simp [faults]

theorem readsOnly_nil : ReadsOnly [] := by
  simp [ReadsOnly]

theorem ReadsOnly.append {l l' : List CommandEvent} (h : ReadsOnly l) (h' : ReadsOnly l') :
    ReadsOnly (l ++ l') := by
  intro e he
  rcases List.mem_append.mp he with he | he
  · exact h e he
  · exact h' e he

theorem readsOnly_singleton {e : CommandEvent} (h : e.command.isWrite = false) :
    ReadsOnly [e] := by
  intro e' he
  rwa [List.mem_singleton.mp he]

instance (l : List CommandEvent) (c : Command) : Decidable (Took l c) :=
  inferInstanceAs (Decidable (∃ e ∈ l, e.command = c ∧ e.outcome ≠ .failed))

section

variable {l l' : List CommandEvent} {c : Command}

@[simp] theorem not_took_nil : ¬Took [] c := by
  simp [Took]

@[simp] theorem took_append : Took (l ++ l') c ↔ Took l c ∨ Took l' c := by
  simp only [Took, List.mem_append, or_and_right, exists_or]

@[simp] theorem took_cons {e : CommandEvent} :
    Took (e :: l) c ↔ (e.command = c ∧ e.outcome ≠ .failed) ∨ Took l c := by
  simp [Took]

/-- Where nothing is written, no write took effect. -/
theorem ReadsOnly.not_took (h : ReadsOnly l) (c : Command) (hc : c.isWrite = true) :
    ¬Took l c := by
  rintro ⟨e, he, rfl, -⟩
  rw [h e he] at hc
  cases hc

theorem ReadsOnly.not_setIdentity (h : ReadsOnly l) (u : Uuid) (name : ProfileName) :
    ¬Took l (.setIdentity u name) :=
  h.not_took _ rfl

theorem ReadsOnly.not_deleteUuid (h : ReadsOnly l) (u : Uuid) : ¬Took l (.deleteUuid u) :=
  h.not_took _ rfl

/-- Commands that fail without effect take none. -/
theorem not_took_of_failed (h : ∀ e ∈ l, e.outcome = .failed) : ¬Took l c := by
  rintro ⟨e, he, -, hne⟩
  exact hne (h e he)

end

/-! ## Profiles as a function

The store without the order of its entries. -/

abbrev Profiles : Type := Uuid → Option Profile

namespace Profiles

/-- `connection modify uuid u connection.id name connection.autoconnect no`. -/
def rename (g : Profiles) (u : Uuid) (name : ProfileName) : Profiles :=
  Function.update g u ((g u).map fun p => p.rename name)

def erase (g : Profiles) (u : Uuid) : Profiles :=
  Function.update g u none

def eraseNamed (g : Profiles) (name : ProfileName) : Profiles :=
  fun v => (g v).filter fun p => p.id ≠ name

end Profiles

/-- What is left of `before` and `after` by a command of this outcome. -/
def Outcome.pick {α : Type} (o : Outcome) (before after : α) : α :=
  if o = .failed then before else after

@[simp] theorem Outcome.pick_done {α : Type} (a b : α) : Outcome.done.pick a b = b := rfl

@[simp] theorem Outcome.pick_failed {α : Type} (a b : α) : Outcome.failed.pick a b = a := rfl

@[simp] theorem Outcome.pick_failedAfter {α : Type} (a b : α) : Outcome.failedAfter.pick a b = b :=
  rfl

@[simp] theorem Outcome.pick_self {α : Type} (o : Outcome) (a : α) : o.pick a a = a := by
  cases o <;> rfl

/-- From `w`, the commands of `l` were issued, and the profiles are those of `g` now. -/
structure Extends (w : World) (l : List CommandEvent) (g : Profiles) (w' : World) : Prop where
  log : w'.log = w.log ++ l
  get : w'.store.get = g

variable {w w' w'' : World} {l l' : List CommandEvent} {g g' : Profiles}

theorem Extends.refl (w : World) : Extends w [] w.store.get w where
  log := by simp
  get := rfl

theorem Extends.trans (h : Extends w l g w') (h' : Extends w' l' g' w'') :
    Extends w (l ++ l') g' w'' where
  log := by rw [h'.log, h.log, List.append_assoc]
  get := h'.get

/-- What executing a command comes to. -/
theorem execute_extends (c : Command) (choice : Choice) (w : World) :
    Extends w [⟨c, choice.outcome⟩]
      (choice.outcome.pick w.store.get (c.effect choice.created w.store).get)
      (execute c choice w).2 := by
  unfold execute
  cases choice.outcome <;> exact ⟨rfl, rfl⟩

/-- A command returns 0 when it is done and had what it needed. -/
theorem execute_returncode (c : Command) (choice : Choice) (w : World) :
    (execute c choice w).1.returncode = 0 ↔
      choice.outcome = .done ∧ (c.answer choice w.store).returncode = 0 := by
  unfold execute
  cases h : choice.outcome
  · simp
  · simpa using choice.code.property
  · simpa using choice.code.property

/-! ## One command at a time

The rules of the commands, with the profiles and the log after them. -/

section

variable {R : PyErr → World → Prop}

/-- A command answers as the surroundings decide. -/
theorem wp_run {c : Command} {Q : CommandResult → World → Prop}
    (h : ∀ choice, Q (execute c choice w).1 (execute c choice w).2) :
    (Backend.run c).wp nmcli Q R w := by
  rintro _ rfl
  refine ⟨trivial, ?_⟩
  rintro _ _ ⟨choice, rfl, rfl⟩
  rintro _ rfl
  exact h choice

theorem wp_runWithSecret {c : Command} {password : String} {Q : CommandResult → World → Prop}
    (h : ∀ choice, Q (execute c choice w).1 (execute c choice w).2) :
    (Backend.runWithSecret c password).wp nmcli Q R w := by
  rintro _ rfl
  refine ⟨trivial, ?_⟩
  rintro _ _ ⟨choice, rfl, rfl⟩
  rintro _ rfl
  exact h choice

theorem wp_ret {α : Type} {a : α} {Q : α → World → Prop} (h : Q a w) :
    (Prog.ret a : Backend α).wp nmcli Q R w := by
  rintro _ rfl
  exact h

/-- A command succeeds where it was done and has something to work on. -/
theorem wp_succeeds {c : Command} {Q : Bool → World → Prop}
    (h : ∀ choice ok, (ok = true ↔ choice.outcome = .done ∧
      (c.answer choice w.store).returncode = 0) → Q ok (execute c choice w).2) :
    (Backend.succeeds c).wp nmcli Q R w := by
  refine wp_bind.mpr (wp_run fun choice => wp_ret (h choice _ ?_))
  rw [← execute_returncode, beq_iff_eq]

end

/-! ## The methods that are one command or a check

Their rules follow from that of the command. -/

section

variable {R : PyErr → World → Prop}

/-- A command that leaves the profiles alone and always returns 0 when it is done. -/
theorem wp_succeeds_read {c : Command} (hc : ∀ created s, c.effect created s = s)
    (hanswer : ∀ choice s, (c.answer choice s).returncode = 0) {Q : Bool → World → Prop}
    (h : ∀ ok w' o, Extends w [⟨c, o⟩] w.store.get w' → (ok = true ↔ o = .done) → Q ok w') :
    (Backend.succeeds c).wp nmcli Q R w := by
  refine wp_succeeds fun choice ok hok => h ok _ choice.outcome ?_ ?_
  · simpa [hc] using execute_extends c choice w
  · simpa [hanswer] using hok

/-- Giving a profile a name. -/
theorem wp_setProfileIdentity {u : Uuid} {name : ProfileName} {Q : Bool → World → Prop}
    (h : ∀ ok w' o, Extends w [⟨.setIdentity u name, o⟩]
        (o.pick w.store.get (Profiles.rename w.store.get u name)) w' →
      (ok = true ↔ o = .done ∧ (w.store.get u).isSome = true) → Q ok w') :
    (Backend.setProfileIdentity u name).wp nmcli Q R w := by
  refine wp_succeeds fun choice ok hok => h ok _ choice.outcome ?_ ?_
  · have hext := execute_extends (.setIdentity u name) choice w
    rwa [Command.effect, ProfileStore.get_modify] at hext
  · rw [hok]
    cases hu : w.store.get u <;> simp [Command.answer, onProfile, hu]

theorem wp_deleteProfileUuid {u : Uuid} {Q : Bool → World → Prop}
    (h : ∀ ok w' o, Extends w [⟨.deleteUuid u, o⟩]
        (o.pick w.store.get (Profiles.erase w.store.get u)) w' → (ok = true ↔ o = .done) →
      Q ok w') :
    (Backend.deleteProfileUuid u).wp nmcli Q R w := by
  refine wp_succeeds fun choice ok hok => h ok _ choice.outcome ?_ ?_
  · have hext := execute_extends (.deleteUuid u) choice w
    rwa [Command.effect, ProfileStore.get_erase] at hext
  · simpa [Command.answer] using hok

/-- Deleting the profiles of a name. -/
theorem wp_deleteProfile {name : ProfileName} {Q : Unit → World → Prop}
    (h : ∀ w' o, Extends w [⟨.deleteId name, o⟩]
        (o.pick w.store.get (Profiles.eraseNamed w.store.get name)) w' → Q () w') :
    (Backend.deleteProfile name).wp nmcli Q R w := by
  refine wp_bind.mpr (wp_run fun choice => wp_ret (h _ choice.outcome ?_))
  have hext := execute_extends (.deleteId name) choice w
  rwa [Command.effect, ProfileStore.get_eraseNamed] at hext

/-- A property that is read is the profile's own. -/
theorem wp_profileProperty {u : Uuid} {p : Profile} {property : ProfileProperty}
    {Q : Option String → World → Prop} (hp : w.store.get u = some p)
    (h : ∀ w' o r, Extends w [⟨.getProperty u property, o⟩] w.store.get w' →
      (r = some (Py.strip (match property with
        | .connectionId => p.id.text
        | .connectionAutoconnect => if p.autoconnect then "yes" else "no")) ∧ o = .done ∨
        r = none ∧ o ≠ .done) → Q r w') :
    (Backend.profileProperty u property).wp nmcli Q R w := by
  refine wp_bind.mpr (wp_run fun choice => wp_ret (h _ choice.outcome _ ?_ ?_))
  · simpa [Command.effect] using execute_extends (.getProperty u property) choice w
  -- the value is printed if the command took effect, and nothing else tells of it
  · by_cases hdone : choice.outcome = .done
    · have hanswer : (execute (.getProperty u property) choice w).1 =
          (Command.getProperty u property).answer choice w.store := by
        rw [execute, hdone]
      refine .inl ⟨?_, hdone⟩
      rw [hanswer]
      cases property <;> simp [Command.answer, hp, onProfile]
    · refine .inr ⟨?_, hdone⟩
      rw [if_neg]
      intro hzero
      exact hdone ((execute_returncode _ _ _).mp hzero).1

/-- A profile that has the identity is found to have it, unless a command fails. -/
theorem wp_profileHasIdentity {u : Uuid} {p : Profile} {Q : Bool → World → Prop}
    (hp : w.store.get u = some p) (hstrip : Py.strip p.id.text = p.id.text)
    (hauto : p.autoconnect = false)
    (h : ∀ ok w' l, ReadsOnly l → Extends w l w.store.get w' → (ok = true ↔ faults l = 0) →
      Q ok w') :
    (Backend.profileHasIdentity u p.id).wp nmcli Q R w := by
  refine wp_bind.mpr (wp_profileProperty hp fun w₁ o₁ r₁ hw₁ hr₁ => ?_)
  have hread₁ : ReadsOnly [⟨.getProperty u .connectionId, o₁⟩] := readsOnly_singleton rfl
  -- the name is read first; a name that cannot be read ends the check
  rcases hr₁ with ⟨rfl, rfl⟩ | ⟨rfl, hfail⟩
  · rw [if_pos (congrArg some hstrip)]
    have hp₁ : w₁.store.get u = some p := by rw [hw₁.get, hp]
    refine wp_bind.mpr (wp_profileProperty hp₁ fun w₂ o₂ r₂ hw₂ hr₂ => wp_ret ?_)
    rw [hw₁.get] at hw₂
    have hread₂ : ReadsOnly [⟨.getProperty u .connectionAutoconnect, o₂⟩] :=
      readsOnly_singleton rfl
    refine h _ w₂ _ (hread₁.append hread₂) (hw₁.trans hw₂) ?_
    rcases hr₂ with ⟨rfl, rfl⟩ | ⟨rfl, hfail⟩
    · have hno : Py.strip "no" = "no" := by decide
      simp [hauto, hno]
    · simp [hfail]
  · rw [if_neg (by simp)]
    exact wp_ret (h _ w₁ _ hread₁ hw₁ (by simp [hfail]))

end

/-! ## Looking a name up

A look-up is refused where the name is carried twice, or where the command failed. -/

/-- What looking a name up may answer. -/
inductive Lookup (g : Profiles) (name : ProfileName) (o : Outcome) : Bool × Option Uuid → Prop where
  | found {u : Uuid} (ho : o = .done) (h : ∀ v, Holds g name v ↔ v = u) :
      Lookup g name o (true, some u)
  | absent (ho : o = .done) (h : ∀ v, ¬Holds g name v) : Lookup g name o (true, none)
  | refused (h : o = .done → ∃ u v, u ≠ v ∧ Holds g name u ∧ Holds g name v) :
      Lookup g name o (false, none)

/-- What a look-up answers of a store. -/
theorem lookup_uniqueMatch (s : ProfileStore) (name : ProfileName) :
    Lookup s.get name .done (Backend.uniqueMatch (some (s.named name))) := by
  cases h : s.named name with
  | nil => exact .absent rfl (ProfileStore.named_eq_nil.mp h)
  | cons u rest =>
    cases rest with
    | nil => exact .found rfl (ProfileStore.named_eq_singleton.mp h)
    | cons v rest =>
      have hnodup : (s.named name).Nodup := ProfileStore.nodup_named
      rw [h] at hnodup
      refine .refused fun _ => ⟨u, v, ?_, ?_, ?_⟩
      · rintro rfl
        simp at hnodup
      · exact ProfileStore.mem_named.mp (by simp [h])
      · exact ProfileStore.mem_named.mp (by simp [h])

/-- Looking a name up reads. -/
theorem wp_profileUuid {R : PyErr → World → Prop} {name : ProfileName}
    {Q : Bool × Option Uuid → World → Prop}
    (h : ∀ r w' o, Extends w [⟨.listProfiles, o⟩] w.store.get w' →
      Lookup w.store.get name o r → Q r w') :
    (Backend.profileUuid name).wp nmcli Q R w := by
  refine wp_bind.mpr (wp_run fun choice => ?_)
  have hext : Extends w [⟨.listProfiles, choice.outcome⟩] w.store.get
      (execute .listProfiles choice w).2 := by
    simpa [Command.effect] using execute_extends .listProfiles choice w
  by_cases hdone : choice.outcome = .done
  · have hanswer : (execute .listProfiles choice w).1 = ⟨0, w.store.listing⟩ := by
      rw [execute, hdone]
      rfl
    rw [hanswer, if_neg (by simp)]
    refine wp_ret (h _ _ _ hext ?_)
    -- the listing read back is the names in the store
    rw [ProfileStore.profileMatches_listing, hdone]
    exact lookup_uniqueMatch w.store name
  · have hcode : (execute .listProfiles choice w).1.returncode ≠ 0 := fun hzero =>
      hdone ((execute_returncode _ _ _).mp hzero).1
    rw [if_pos hcode]
    exact wp_ret (h _ _ _ hext (.refused fun hd => absurd hd hdone))

end Rave
