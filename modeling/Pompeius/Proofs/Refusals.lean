import Pompeius.Proofs.Frames
import Pompeius.Proofs.Stages

/-!
# A form that does not pass validation

Three of the four submit handlers look at what their validation says, and
`loginButton` does not. A login form with an unsafe password is sent like any
other; everywhere else an invalid form comes to nothing but its message.

On the profile pages there is nothing to show, since no form of theirs is
invalid. Registration is where the argument is. The handler asks for nothing,
so the calls in flight and the backend go on as if the button had not been
touched (`Alike`); and the segue of the button takes the form off the screen
in the same touch, so no second submission of it can ever fail and write over
the message. That no earlier one can either is `Unsubmitted`: of the
controllers a submit button was touched on, only a login screen is ever still
in the window.
-/

namespace Pompeius

open Lib

/-- The validation of the form a submit handler runs on. -/
def Invocation.validateFields : Invocation → Except Trap (Option String)
  | .loginButton self => self.validateFields
  | .registerButton self => self.validateFields
  | .profileContinue self => self.validateFields
  | .profile2Continue self => self.validateFields

theorem Invocation.validateFields_login {form : ViewController}
    (h : Utilities.isPasswordValid form.passwordField.cleaned = false) :
    (Invocation.loginButton form).validateFields = .ok (some passwordPolicy) := by
  show form.validateFields = _
  rw [form.validateFields_eq, if_pos h]

/-- The one thing validation ever says is the password policy, on the two forms
that have a password. -/
theorem Invocation.invalid_of_validateFields {inv : Invocation} {message : String}
    (h : inv.validateFields = .ok (some message)) :
    message = passwordPolicy ∧
      ((∃ form, inv = .loginButton form ∧
          Utilities.isPasswordValid form.passwordField.cleaned = false) ∨
        ∃ form, inv = .registerButton form ∧
          Utilities.isPasswordValid form.passwordField.cleaned = false) := by
  cases inv with
  | loginButton form =>
      change form.validateFields = _ at h
      rw [form.validateFields_eq, passwordOutcome_eq_some] at h
      exact ⟨h.2, .inl ⟨form, rfl, h.1⟩⟩
  | registerButton form =>
      change form.validateFields = _ at h
      rw [form.validateFields_eq, passwordOutcome_eq_some] at h
      exact ⟨h.2, .inr ⟨form, rfl, h.1⟩⟩
  | profileContinue form =>
      change form.validateFields = _ at h
      rw [form.validateFields_eq] at h
      cases h
  | profile2Continue form =>
      change form.validateFields = _ at h
      rw [form.validateFields_eq] at h
      cases h

/-! ## Devices that answer alike -/

namespace Device

/-- The same backend with the same calls waiting for it, whatever is on record. -/
def Alike (d d' : Device) : Prop :=
  ∃ taps history, d' = { d with taps, history }

theorem Alike.next {d d' t : Device} {e : Event} (h : Alike d d') (hnext : d.next e = some t)
    (he : ∀ self inv, e ≠ .invoke self inv) : ∃ t', d'.next e = some t' ∧ Alike t t' := by
  obtain ⟨taps, history, rfl⟩ := h
  cases step_of_next hnext with
  | invoke _ => exact absurd rfl (he _ _)
  | serve hcall hperm hhead =>
      exact ⟨_, next_of_step (.serve hcall hperm hhead), taps, _, rfl⟩
  | deliver hcall hun heff => exact ⟨_, next_of_step (.deliver hcall hun heff), taps, _, rfl⟩
  | announce hann => exact ⟨_, next_of_step (.announce hann), taps, history, rfl⟩
  | auth => exact ⟨_, next_of_step .auth, taps, history, rfl⟩

/-- What follows without another tap does the same to both. -/
theorem Alike.of_run {d d' t : Device} {devs : List Event} (h : Alike d d')
    (hrun : run Device.next d devs = some t) (hdevs : ∀ self inv, .invoke self inv ∉ devs) :
    ∃ t', run Device.next d' devs = some t' ∧ Alike t t' := by
  induction devs generalizing d d' with
  | nil =>
      cases hrun
      exact ⟨d', rfl, h⟩
  | cons e devs ih =>
      obtain ⟨u, hu, hrest⟩ := run_cons_some.mp hrun
      obtain ⟨u', hu', halike⟩ := h.next hu fun self inv heq =>
        hdevs self inv (heq ▸ List.mem_cons_self)
      obtain ⟨t', ht', hlast⟩ := ih halike hrest fun self inv hmem =>
        hdevs self inv (List.mem_cons_of_mem e hmem)
      exact ⟨t', run_cons_some.mpr ⟨u', hu', ht'⟩, hlast⟩

/-- A tap that asks for nothing. -/
theorem calls_tapped {d : Device} (hl : Lives d) (self : Nat) (inv : Invocation)
    (ui : List UIEffect) : (d.tapped self inv { ui }).calls = d.calls := by
  show Function.update d.calls d.taps.length none = d.calls
  rw [← (hl.unborn _ (Nat.le_refl _)).1, Function.update_eq_self]

theorem alike_tapped {d : Device} (hl : Lives d) (self : Nat) (inv : Invocation)
    (ui : List UIEffect) : Alike (d.tapped self inv { ui }) d := by
  refine ⟨d.taps, d.history, ?_⟩
  have hpipeline : (d.tapped self inv { ui }).pipeline = d.pipeline := List.append_nil _
  rw [calls_tapped hl, hpipeline]
  rfl

end Device

namespace App

/-! ## Registration, its form refused -/

/-- Of the controllers a submit button was touched on, only a login screen is
still in the window. -/
def Unsubmitted (a : App) : Prop :=
  ∀ t ∈ a.device.taps, a.shown = some t.self → t.invocation.scene = .login

section

variable {a a' : App} {e : Event} {id : Nat}

/-- A submission whose screen stays in the window is one to log in. -/
theorem Step.login_of_shown {b : Button} {c : Controller} {inv : Invocation}
    (h : Step a (.tap b) a') (hlt : id < a.controllers.length)
    (hsub : b.submission c = some inv) (hshown : a'.shown = some id) :
    inv.scene = .login := by
  cases h with
  | stay hquiet _ =>
      have hsegues := hquiet b rfl
      unfold Button.submission at hsub
      split at hsub <;> cases hsub
      · rfl
      all_goals cases hsegues
  | @go a₁ c' _ hdrawn =>
      have hlen : a₁.controllers.length = a.controllers.length := by
        simpa using congrArg List.length hdrawn.scenes
      have hlast : some a₁.controllers.length = some id := hshown
      rw [← hlen, Option.some.inj hlast] at hlt
      exact absurd hlt (Nat.lt_irrefl id)

theorem Unsubmitted.next (ha : Sound a) (h : Unsubmitted a) (hnext : a.next e = some a') :
    Unsubmitted a' := by
  have hsurvives := survives_of_next ha hnext
  obtain ⟨_, -, hacts⟩ := exists_actor ha hnext
  have hold : ∀ t ∈ a.device.taps, a'.shown = some t.self → t.invocation.scene = .login := by
    intro t ht hshown
    have hlt := (List.getElem?_eq_some_iff.mp (ha.taps t ht)).1
    rw [List.length_map] at hlt
    exact h t ht (hacts.back _ hlt hshown)
  intro t ht hshown
  cases e with
  | tap b =>
      obtain ⟨id, c, hid, -, hdevice | ⟨inv, eff, hsub, -, hdevice⟩⟩ := hsurvives.tap_device ha
      · rw [hdevice.2] at ht
        exact hold t ht hshown
      · rw [hdevice] at ht
        rcases List.mem_append.mp ht with ht | ht
        · exact hold t ht hshown
        · rw [List.mem_singleton.mp ht] at hshown ⊢
          obtain ⟨id', hid', hlt⟩ := ha.shown
          rw [hid'] at hid
          cases hid
          exact hsurvives.step.login_of_shown hlt hsub hshown
  | _ =>
      rw [Device.taps_of_run hsurvives.device (by simp [deviceEvents])] at ht
      exact hold t ht hshown

theorem unsubmitted_of_run {b : Backend} {evs : List Event}
    (h : run next (initial b) evs = some a) : Unsubmitted a :=
  (run_invariant (P := fun a => Sound a ∧ Unsubmitted a)
    (fun ih hs => ⟨(survives_of_next ih.1 hs).sound, ih.2.next ih.1 hs⟩)
    ⟨sound_initial b, fun _ ht => nomatch ht⟩ h).2

/-- A registration form in the window waits for nothing. -/
theorem Unsubmitted.idle (ha : Sound a) (h : Unsubmitted a) {self : RegisterViewController}
    (hid : a.shown = some id) (hc : a.controllers[id]? = some (.register self)) :
    ∀ t ∈ a.device.taps, t.self ≠ id := by
  rintro t ht rfl
  have hscene := ha.taps t ht
  rw [List.getElem?_map, hc, h t ht hid] at hscene
  cases hscene

theorem errorLabel_update {c : Controller} (hlt : id < a.controllers.length) :
    (a.update id c).errorLabel id = c.errorLabel := by
  have hget : (a.update id c).controllers[id]? = some c := List.getElem?_set_self hlt
  rw [errorLabel, hget]
  rfl

theorem errorLabel_arrive (hlt : id < a.controllers.length) (c : Controller) :
    (a.arrive c).errorLabel id = a.errorLabel id := by
  have hget : (a.arrive c).controllers[id]? = a.controllers[id]? := List.getElem?_append_left hlt
  rw [errorLabel, hget]
  rfl

/-- The segue of the Register button takes the form off the screen as it is. -/
theorem perform_toMyProfile_shown {self : RegisterViewController} (hid : a.shown = some id)
    (hc : a.controllers[id]? = some (.register self)) :
    ∃ a', a.perform id toMyProfile = .ok a' ∧ a'.device = a.device ∧
      a'.errorLabel id = some self.errorLabel ∧ a'.shown ≠ some id := by
  have hlt := (List.getElem?_eq_some_iff.mp hc).1
  have hnumbered : (a.numbered id self).errorLabel id = some self.errorLabel :=
    errorLabel_update hlt
  have hlt' : id < (a.numbered id self).controllers.length := by
    simpa [numbered, update] using hlt
  refine ⟨_, (perform_toMyProfile hc).trans (congrArg _ (if_pos hid)), rfl, ?_, ?_⟩
  · rw [errorLabel_arrive hlt', hnumbered]
  · exact arrive_shown_ne (List.getElem?_eq_getElem hlt') _

/-- The touch shows the message, asks for nothing and takes the form off the
screen. -/
theorem touch_register_refused {self : RegisterViewController} (hid : a.shown = some id)
    (hc : a.controllers[id]? = some (.register self))
    (heff : (Invocation.registerButton self).run a.device.currentUser =
      .ok { ui := [.showError passwordPolicy] }) :
    ∃ a', a.touch id .register = .ok a' ∧
      a'.device = a.device.tapped id (.registerButton self) { ui := [.showError passwordPolicy] } ∧
      a'.errorLabel id = some ⟨passwordPolicy, 1⟩ ∧ a'.shown ≠ some id := by
  rw [touch_register_eq hc, submit_eq heff]
  generalize a.device.tapped id (.registerButton self) { ui := [.showError passwordPolicy] } = d
  have hc₁ : (a.withDevice d).controllers[id]? = some (.register self) := hc
  have hc₂ : ((a.withDevice d).update id
      (.register { self with errorLabel := ⟨passwordPolicy, 1⟩ })).controllers[id]? =
        some (.register { self with errorLabel := ⟨passwordPolicy, 1⟩ }) :=
    List.getElem?_set_self (List.getElem?_eq_some_iff.mp hc).1
  rw [effects_showError hc₁]
  refine perform_toMyProfile_shown ?_ hc₂
  exact hid

end

/-! ## Any invalid form -/

/-- Touching the submit button came to nothing but the message on controller
`id`, at once and until `a`. The message is on the label the handler sets; nobody
reads it when the same touch has taken that controller out of the window, which
is what the segue of the Register button does. -/
structure Refused (id : Nat) (message : String) (a₀ a₁ a : App) : Prop where
  calls : a₁.device.calls = a₀.device.calls
  requests : ∀ r, .request r ∉ a.device.deedsOf a₀.device.taps.length
  stored : a₁.device.toBackend = a₀.device.toBackend
  /-- The callbacks do to the backend what they would have done anyway. -/
  inert : ∀ devs d, (∀ self inv, .invoke self inv ∉ devs) →
    run Device.next a₁.device devs = some d →
    ∃ d', run Device.next a₀.device devs = some d' ∧ d'.toBackend = d.toBackend
  shown : a₁.errorLabel id = some ⟨message, 1⟩
  kept : a.errorLabel id = some ⟨message, 1⟩

section

variable {b : Backend} {evs₁ evs₂ : List Event} {a₀ a₁ a : App} {id : Nat}

theorem left_of_refused {self : RegisterViewController} (ha₀ : Sound a₀)
    (hun : Unsubmitted a₀) (hid : a₀.shown = some id)
    (hc : a₀.controllers[id]? = some (.register self))
    (hdevice : a₁.device = a₀.device.tapped id (.registerButton self)
      { ui := [.showError passwordPolicy] })
    (hlabel : a₁.errorLabel id = some ⟨passwordPolicy, 1⟩) (hhidden : a₁.shown ≠ some id) :
    Left id ⟨passwordPolicy, 1⟩ a₁ := by
  refine ⟨hlabel, hhidden, fun i t ht hself => ?_⟩
  rw [hdevice] at ht ⊢
  rw [Device.calls_tapped ha₀.lives]
  change (a₀.device.taps ++ [_])[i]? = some t at ht
  rcases Nat.lt_or_ge i a₀.device.taps.length with hi | hi
  · rw [List.getElem?_append_left hi] at ht
    exact absurd hself (hun.idle ha₀ hid hc t (List.mem_of_getElem? ht))
  · exact (ha₀.lives.unborn i hi).1

/-- A tap that asks for nothing never will. -/
theorem request_not_mem_deedsOf {inv : Invocation} {ui : List UIEffect} (ha₁ : Sound a₁)
    (heff : inv.run a₀.device.currentUser = .ok { ui })
    (hdevice : a₁.device = a₀.device.tapped id inv { ui })
    (hrest : run next a₁ evs₂ = some a) (r : Request) :
    .request r ∉ a.device.deedsOf a₀.device.taps.length := by
  obtain ⟨devs, hdevs, -⟩ := device_of_run ha₁ hrest
  obtain ⟨later, hlater⟩ := (Device.grows_of_run hdevs).1
  have htap : a.device.taps[a₀.device.taps.length]? =
      some ⟨id, inv, a₀.device.currentUser⟩ := by
    rw [← hlater, hdevice]
    show ((a₀.device.taps ++ [_]) ++ later)[_]? = _
    simp
  have hlife := (ha₁.of_run hrest).lives.born _ _ htap
  rw [(deeds_of_life heff rfl hlife).2, Device.deeds]
  simp

theorem refused_register {self : RegisterViewController} (ha₀ : Sound a₀)
    (hun : Unsubmitted a₀) (hid : a₀.shown = some id)
    (hc : a₀.controllers[id]? = some (.register self))
    (hinvalid : Utilities.isPasswordValid self.passwordField.cleaned = false)
    (htap : a₀.next (.tap .register) = some a₁) (hrest : run next a₁ evs₂ = some a) :
    Refused id passwordPolicy a₀ a₁ a := by
  have heff : (Invocation.registerButton self).run a₀.device.currentUser =
      .ok { ui := [.showError passwordPolicy] } := by
    show self.registerButton = _
    rw [self.registerButton_eq, if_pos hinvalid]
  obtain ⟨a', htouch, hdevice, hlabel, hhidden⟩ := touch_register_refused hid hc heff
  have ha₁ := (survives_of_next ha₀ htap).sound
  obtain ⟨id', c', hid', -, -, heq⟩ := step_tap ha₀ (step_of_next htap)
  rw [hid] at hid'
  cases hid'
  rw [htouch] at heq
  cases heq
  have hcalls : a₁.device.calls = a₀.device.calls := by
    rw [hdevice, Device.calls_tapped ha₀.lives]
  have hleft := left_of_refused ha₀ hun hid hc hdevice hlabel hhidden
  refine ⟨hcalls, request_not_mem_deedsOf ha₁ heff hdevice hrest, ?_, fun devs d hdevs hrun => ?_,
    hlabel, (hleft.of_run ha₁ hrest).label⟩
  · rw [hdevice]
    rfl
  · rw [hdevice] at hrun
    obtain ⟨d', hd', taps, history, rfl⟩ :=
      (Device.alike_tapped ha₀.lives id (.registerButton self) _).of_run hrun hdevs
    exact ⟨_, hd', rfl⟩

/-- A log-in always comes to a call. -/
theorem not_refused_login {form : ViewController} {message : String} (ha₀ : Sound a₀)
    (hc : a₀.shownController = some (.login form)) (htap : a₀.next (.tap .login) = some a₁) :
    ¬ Refused id message a₀ a₁ a := by
  intro h
  obtain ⟨id', c, -, hc', hdevice⟩ := (survives_of_next ha₀ htap).tap_device ha₀
  rw [hc] at hc'
  cases hc'
  obtain ⟨hnone, -⟩ | ⟨inv, eff, hsub, heff, hdevice⟩ := hdevice
  · cases hnone
  · cases hsub
    change form.loginButton = _ at heff
    rw [form.loginButton_eq] at heff
    cases heff
    have hcall : a₁.device.calls a₀.device.taps.length =
        some ⟨.signIn form.emailField.cleaned form.passwordField.cleaned, none⟩ := by
      rw [hdevice]
      exact Function.update_self ..
    rw [h.calls, (ha₀.lives.unborn _ (Nat.le_refl _)).1] at hcall
    cases hcall

theorem submission_register {btn : Button} {c : Controller} {form : RegisterViewController}
    (h : btn.submission c = some (.registerButton form)) : btn = .register ∧ c = .register form := by
  unfold Button.submission at h
  split at h <;> cases h
  exact ⟨rfl, rfl⟩

theorem submission_login {btn : Button} {c : Controller} {form : ViewController}
    (h : btn.submission c = some (.loginButton form)) : btn = .login ∧ c = .login form := by
  unfold Button.submission at h
  split at h <;> cases h
  exact ⟨rfl, rfl⟩

/-- An invalid form comes to nothing but its message, whatever happens after,
exactly unless it is a login form. -/
theorem invalid_form_refused_iff {c : Controller} {btn : Button} {inv : Invocation}
    (hrun : run next (initial b) evs₁ = some a₀) (hid : a₀.shown = some id)
    (hc : a₀.shownController = some c) (hsub : btn.submission c = some inv)
    (htap : a₀.next (.tap btn) = some a₁) (hrest : run next a₁ evs₂ = some a) :
    (∀ message, inv.validateFields = .ok (some message) → Refused id message a₀ a₁ a) ↔
      ∀ form, inv = .loginButton form →
        Utilities.isPasswordValid form.passwordField.cleaned = true := by
  have ha₀ := (sound_initial b).of_run hrun
  constructor
  · rintro h form rfl
    obtain ⟨rfl, rfl⟩ := submission_login hsub
    by_contra hunsafe
    have hinvalid := Invocation.validateFields_login (Bool.eq_false_iff.mpr hunsafe)
    exact not_refused_login ha₀ hc htap (h passwordPolicy hinvalid)
  · intro h message hmessage
    obtain ⟨rfl, ⟨form, rfl, hunsafe⟩ | ⟨form, rfl, hunsafe⟩⟩ :=
      Invocation.invalid_of_validateFields hmessage
    · rw [h form rfl] at hunsafe
      cases hunsafe
    · obtain ⟨rfl, rfl⟩ := submission_register hsub
      have hc' : a₀.controllers[id]? = some (.register form) := by
        rw [shownController, hid] at hc
        exact hc
      exact refused_register ha₀ (unsubmitted_of_run hrun) hid hc' hunsafe htap hrest

end

/-- Registration with an unsafe password, and what one can do after it. -/
theorem invalid_form_refused_register :
    ∃ a₀ a₁ a,
      run next (initial {}) [.tap .registerHere, .type .password "short"] = some a₀ ∧
      a₀.next (.tap .register) = some a₁ ∧
      run next a₁ [.type .occupation "poet", .tap .profileBack, .auth none] = some a ∧
      Refused 1 passwordPolicy a₀ a₁ a := by
  refine ⟨_, _, _, rfl, rfl, rfl, ?_⟩
  have h := @invalid_form_refused_iff {} [.tap .registerHere, .type .password "short"]
    [.type .occupation "poet", .tap .profileBack, .auth none] _ _ _ 1 _ .register _
    rfl rfl rfl rfl rfl rfl
  exact h.mpr nofun passwordPolicy rfl

/-- A backend with one account, whose password the app would refuse. -/
def weakAccount : Backend := { accounts := [⟨"ada@example.org", "secret", "u1"⟩] }

/-- The login form is invalid, and whoever sends it is signed in. -/
theorem invalid_login_signs_in :
    ∃ a₀ a₁ a form,
      run next (initial weakAccount)
        [.type .email "ada@example.org", .type .password "secret"] = some a₀ ∧
      a₀.shownController = some (.login form) ∧
      form.validateFields = .ok (some passwordPolicy) ∧
      a₀.next (.tap .login) = some a₁ ∧
      run next a₁ [.serve 0 (.signIn (.success ())), .announce, .deliver 0] = some a ∧
      a₀.device.currentUser = none ∧ a.device.currentUser = some ⟨"u1"⟩ ∧
      ¬ Refused 0 passwordPolicy a₀ a₁ a := by
  have hrun : run next (initial weakAccount)
      [.type .email "ada@example.org", .type .password "secret"] = some _ := rfl
  refine ⟨_, _, _, ⟨⟨"ada@example.org"⟩, ⟨"secret"⟩, hiddenLabel⟩, hrun, rfl, by decide, rfl, rfl,
    rfl, rfl, ?_⟩
  exact not_refused_login ((sound_initial _).of_run hrun) rfl rfl

end App

end Pompeius
