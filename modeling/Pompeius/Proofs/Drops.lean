import Pompeius.Proofs.Soundness
import Pompeius.Proofs.Stages
import Pompeius.Proofs.Documents

/-!
# Profile data that is dropped without a word

A profile page moves on before any of its calls is answered, and neither page
looks back: its completion handlers either make the next call or do nothing.
So once the last callback is in, the page was written exactly when there was a
user to write it for, on page 1 an image that could be encoded, and no call of
the tap was refused. `written_or_told_iff` says so for one tap, by its stages,
and `not_dropped_iff` for a tap anywhere in a run of the app.

`Told` never holds of a profile page. It is in the statement because showing
an error is the one thing that would excuse a page that is not written.
-/

namespace Pompeius

open Lib Device

/-! ## One submission -/

/-- What was typed on a profile page, trimmed, by the fields of the document. -/
def Invocation.typed : Invocation → Dictionary
  | .profileContinue form =>
      [("occupation", form.occupationTextField.cleaned), ("age", form.ageTextField.cleaned),
       ("height", form.heightTextField.cleaned), ("gender", form.genderTextField.cleaned),
       ("country of origin", form.countryOriginTextField.cleaned),
       ("country raised in", form.countryRaisedTextField.cleaned)]
  | .profile2Continue form =>
      [("current residence", form.currentResidenceTextField.cleaned),
       ("employment", form.employmentTextField.cleaned),
       ("religion standard", form.religiousnessTextField.cleaned),
       ("citizenship", form.citizenshipTextField.cleaned),
       ("age preference", form.preferenceTextField.cleaned)]
  | _ => []

/-- A profile page that passes validation, page 1 with a selected image. -/
def Invocation.Complete : Invocation → Prop
  | .profileContinue form => form.image.isSome ∧ form.validateFields = .ok none
  | .profile2Continue form => form.validateFields = .ok none
  | _ => False

/-- Nothing the page needs is unencodable. -/
def Invocation.Encodes : Invocation → Prop
  | .profileContinue form => form.imageData.isSome
  | _ => True

/-- The write takes the fields to the user's document. `users/new` stands for it: it is
the one document the program keeps, whoever is signed in, so what is typed on a
page is stored there or nowhere. -/
def DocumentWrite.Carries (w : DocumentWrite) (fields : Dictionary) : Prop :=
  w.document = "new" ∧ ∀ p ∈ fields, w.data.lookup p.1 = some p.2

/-- A write on record carried the fields and took effect. -/
def Written (fields : Dictionary) (ds : List Deed) : Prop :=
  ∃ w c, .served (.setData w c) (.setData (.success ())) ∈ ds ∧ w.Carries fields

def Told (ds : List Deed) : Prop := ∃ message, .ui (.showError message) ∈ ds

theorem carries_profileWrite (form : MyProfileViewController) (url : String) :
    (MyProfileViewController.profileWrite form.submitted url).Carries
      (Invocation.profileContinue form).typed := by
  rw [DocumentWrite.Carries, MyProfileViewController.submitted, profileWrite_data]
  refine ⟨rfl, fun p hp => ?_⟩
  simp only [Invocation.typed, List.mem_cons, List.not_mem_nil, or_false] at hp
  rcases hp with rfl | rfl | rfl | rfl | rfl | rfl <;> rfl

theorem carries_profile2Write (form : MyProfile2ViewController) :
    form.submitted.Carries (Invocation.profile2Continue form).typed := by
  refine ⟨rfl, fun p hp => ?_⟩
  simp only [Invocation.typed, List.mem_cons, List.not_mem_nil, or_false] at hp
  rcases hp with rfl | rfl | rfl | rfl | rfl <;> rfl

/-- Nothing was written and nothing said. -/
theorem silent_of_mem {fields : Dictionary} {ds : List Deed}
    (hserved : ∀ w c, .served (.setData w c) (.setData (.success ())) ∉ ds)
    (hui : ∀ message, .ui (.showError message) ∉ ds) : ¬ (Written fields ds ∨ Told ds) := by
  rintro (⟨w, c, hmem, -⟩ | ⟨message, hmem⟩)
  · exact hserved w c hmem
  · exact hui message hmem

theorem not_all_succeeded {ds : List Deed} {r : Request} {ans : Answer}
    (hmem : .served r ans ∈ ds) (hans : ans.succeeded = false) :
    ¬ ∀ r ans, .served r ans ∈ ds → ans.succeeded = true := by
  intro hall
  rw [hall r ans hmem] at hans
  cases hans

theorem Upload.written_or_told_iff {form : MyProfileViewController} {ref : StorageReference}
    {object : StorageObject} {ds : List Deed} (h : Upload ref object form.submitted none ds) :
    Written (Invocation.profileContinue form).typed ds ∨ Told ds ↔
      ∀ r ans, .served r ans ∈ ds → ans.succeeded = true := by
  cases h with
  | uploadFailed e =>
      exact iff_of_false (silent_of_mem (by simp [uploadDeeds]) (by simp [uploadDeeds]))
        (not_all_succeeded (List.mem_cons_of_mem _ List.mem_cons_self) rfl)
  | locateFailed e =>
      exact iff_of_false
        (silent_of_mem (by simp [uploadDeeds, downloadDeeds]) (by simp [uploadDeeds, downloadDeeds]))
        (not_all_succeeded (List.mem_cons_of_mem _ List.mem_cons_self) rfl)
  | written tokens reply =>
      cases reply with
      | failure e =>
          exact iff_of_false
            (silent_of_mem (by simp [uploadDeeds, downloadDeeds, writeDeeds, tokenWrite])
              (by simp [uploadDeeds, downloadDeeds, writeDeeds]))
            (not_all_succeeded List.mem_cons_self rfl)
      | success _ =>
          refine iff_of_true (.inl ⟨_, _, List.mem_cons_self, carries_profileWrite form _⟩) ?_
          intro r ans hmem
          simp only [writeDeeds, downloadDeeds, uploadDeeds, List.mem_cons, Deed.served.injEq,
            reduceCtorEq, List.not_mem_nil, false_or, or_false] at hmem
          rcases hmem with ⟨-, rfl⟩ | ⟨-, rfl⟩ | ⟨-, rfl⟩ <;> rfl

theorem Page2.written_or_told_iff {form : MyProfile2ViewController} {ds : List Deed}
    (h : Page2 form.submitted none ds) :
    Written (Invocation.profile2Continue form).typed ds ∨ Told ds ↔
      ∀ r ans, .served r ans ∈ ds → ans.succeeded = true := by
  cases h with
  | written reply =>
      cases reply with
      | failure e =>
          exact iff_of_false (silent_of_mem (by simp) (by simp))
            (not_all_succeeded List.mem_cons_self rfl)
      | success _ =>
          refine iff_of_true (.inl ⟨_, _, List.mem_cons_self, carries_profile2Write form⟩) ?_
          intro r ans hmem
          simp only [List.mem_cons, Deed.served.injEq, reduceCtorEq, List.not_mem_nil,
            or_false] at hmem
          rw [hmem.2]
          rfl

/-- A page without a call was neither written nor explained. -/
theorem silent_of_idle {fields : Dictionary} {ds : List Deed}
    (h : ∀ x ∈ ds, ∃ id, x = .ui (.performSegue id)) : ¬ (Written fields ds ∨ Told ds) := by
  refine silent_of_mem (fun w c hmem => ?_) fun message hmem => ?_
  · obtain ⟨id, hid⟩ := h _ hmem
    cases hid
  · obtain ⟨id, hid⟩ := h _ hmem
    cases hid

theorem written_or_told_iff {t : Tap} {ds : List Deed} (hcomplete : t.invocation.Complete)
    (h : Life t none ds) :
    Written t.invocation.typed ds ∨ Told ds ↔
      t.user.isSome ∧ t.invocation.Encodes ∧
        ∀ r ans, .served r ans ∈ ds → ans.succeeded = true := by
  cases hinv : t.invocation with
  | loginButton form => rw [hinv] at hcomplete; exact hcomplete.elim
  | registerButton form => rw [hinv] at hcomplete; exact hcomplete.elim
  | profileContinue form =>
      by_cases hidle : t.user = none ∨ form.imageData = none
      · refine iff_of_false (silent_of_idle (idle_of_life hinv hidle h).2) ?_
        rintro ⟨huser, himage, -⟩
        rcases hidle with hidle | hidle
        · simp [hidle] at huser
        · simp [Invocation.Encodes, hidle] at himage
      · obtain ⟨huser, himage⟩ := not_or.mp hidle
        obtain ⟨user, huser⟩ := Option.ne_none_iff_exists'.mp huser
        obtain ⟨imageData, himage⟩ := Option.ne_none_iff_exists'.mp himage
        rw [(upload_of_life hinv huser himage h).written_or_told_iff]
        simp [Invocation.Encodes, huser, himage]
  | profile2Continue form =>
      cases huser : t.user with
      | none =>
          refine iff_of_false (silent_of_idle ?_) (by simp)
          rw [(page2_idle_of_life hinv huser h).2]
          simp
      | some user =>
          rw [(page2_of_life hinv huser h).written_or_told_iff]
          simp [Invocation.Encodes]

/-! ## In a run of the app -/

namespace App

/-- A page that is continued moves on. -/
theorem Step.shows {a a' : App} {b : Button} (h : Step a (.tap b) a') {segue : Segue}
    (hsegues : b.segues = [segue]) :
    a'.shownController.map Controller.scene = some segue.destination := by
  cases h with
  | stay hquiet _ =>
      rw [hquiet b rfl] at hsegues
      cases hsegues
  | @go a₁ c hleads _ =>
      cases hleads with
      | tap _ _ hsegues' hc =>
          rw [hsegues] at hsegues'
          cases hsegues'
          rw [arrive_shownController, Option.map_some, hc]

theorem segues_of_complete {b : Button} {c : Controller} {inv : Invocation}
    (hsub : b.submission c = some inv) (hcomplete : inv.Complete) :
    ∃ segue, b.segues = [segue] := by
  unfold Button.submission at hsub
  split at hsub <;> cases hsub
  · exact hcomplete.elim
  · exact hcomplete.elim
  · exact ⟨_, rfl⟩
  · exact ⟨_, rfl⟩

/-- Under the run lies a run of the device in which the tap has its number. -/
theorem device_of_tap {b : Backend} {evs₁ evs₂ : List Event} {a₀ a₁ a : App} {c : Controller}
    {btn : Button} {inv : Invocation} (hrun : run next (initial b) evs₁ = some a₀)
    (hc : a₀.shownController = some c) (hsub : btn.submission c = some inv)
    (htap : a₀.next (.tap btn) = some a₁) (hrest : run next a₁ evs₂ = some a) :
    ∃ devs t, run Device.next (Device.launch b) devs = some a.device ∧
      a.device.taps[a₀.device.taps.length]? = some t ∧ t.invocation = inv ∧
      t.user = a₀.device.currentUser ∧
      ∀ ans, .serve a₀.device.taps.length ans ∈ devs ↔
        .serve a₀.device.taps.length ans ∈ evs₂ := by
  have ha₀ := (sound_initial b).of_run hrun
  have hsurvives := survives_of_next ha₀ htap
  obtain ⟨id, c', -, hc', ⟨hnone, -⟩ | ⟨inv', eff, hsub', heff, hdevice⟩⟩ :=
    hsurvives.tap_device ha₀
  · rw [hc] at hc'
    cases hc'
    rw [hsub] at hnone
    cases hnone
  · rw [hc] at hc'
    cases hc'
    rw [hsub] at hsub'
    cases hsub'
    obtain ⟨devs₁, hdevs₁, -⟩ := device_of_run (sound_initial b) hrun
    obtain ⟨devs₂, hdevs₂, hserve⟩ := device_of_run hsurvives.sound hrest
    have hnext : a₀.device.next (.invoke id inv) = some a₁.device := by
      rw [hdevice]
      exact next_invoke heff
    refine ⟨devs₁ ++ .invoke id inv :: devs₂, ⟨id, inv, a₀.device.currentUser⟩,
      run_append_some.mpr ⟨_, hdevs₁, run_cons_some.mpr ⟨_, hnext, hdevs₂⟩⟩, ?_, rfl, rfl, ?_⟩
    · obtain ⟨rest, htaps⟩ := (Device.grows_of_run hdevs₂).1
      rw [← htaps, hdevice]
      show ((a₀.device.taps ++ [_]) ++ rest)[a₀.device.taps.length]? = _
      simp
    · intro ans
      have hfresh : .serve a₀.device.taps.length ans ∉ devs₁ := by
        intro hmem
        obtain ⟨r, hr⟩ := (Device.served_iff_of_run hdevs₁).mpr hmem
        obtain ⟨t, ht⟩ := Device.exists_tap_of_run hdevs₁ hr
        simp at ht
      simp [hfresh, hserve]

theorem not_dropped_iff {b : Backend} {evs₁ evs₂ : List Event} {a₀ a₁ a : App} {c : Controller}
    {btn : Button} {inv : Invocation} (hrun : run next (initial b) evs₁ = some a₀)
    (hc : a₀.shownController = some c) (hsub : btn.submission c = some inv)
    (hcomplete : inv.Complete) (htap : a₀.next (.tap btn) = some a₁)
    (hrest : run next a₁ evs₂ = some a) (hsettled : a.device.Settled a₀.device.taps.length) :
    a₁.shownController.map Controller.scene = btn.segues.head?.map Segue.destination ∧
      (Written inv.typed (a.device.deedsOf a₀.device.taps.length) ∨
          Told (a.device.deedsOf a₀.device.taps.length) ↔
        a₀.device.currentUser.isSome ∧ inv.Encodes ∧
          ∀ ans, .serve a₀.device.taps.length ans ∈ evs₂ → ans.succeeded = true) := by
  constructor
  · obtain ⟨segue, hsegues⟩ := segues_of_complete hsub hcomplete
    have hsurvives := survives_of_next ((sound_initial b).of_run hrun) htap
    rw [hsurvives.step.shows hsegues, hsegues]
    rfl
  · obtain ⟨devs, t, hdevs, ht, rfl, huser, hserve⟩ := device_of_tap hrun hc hsub htap hrest
    have hlife := life_of_run hdevs ht
    rw [Settled] at hsettled
    rw [hsettled] at hlife
    rw [written_or_told_iff hcomplete hlife, huser]
    refine and_congr_right fun _ => and_congr_right fun _ => ?_
    constructor
    · intro hall ans hmem
      obtain ⟨r, hr⟩ := (Device.served_iff_of_run hdevs).mpr ((hserve ans).mpr hmem)
      exact hall r ans (Device.mem_deedsOf.mpr hr)
    · intro hall r ans hmem
      exact hall ans ((hserve ans).mp ((Device.served_iff_of_run hdevs).mp
        ⟨r, Device.mem_deedsOf.mp hmem⟩))

/-- An account, and page 1 on the screen. -/
def signUp : List Event :=
  [.tap .registerHere, .type .password "passw0rd!", .type .email "ada@example.com",
   .tap .register, .serve 0 (.createUser (.success "ada")), .announce, .deliver 0,
   .serve 0 (.setData (.success ())), .deliver 0,
   .type .occupation "poet", .pickImage (some ⟨some [1]⟩)]

/-- The callbacks of page 1, the first call of which gets this answer. -/
def callbacks : List Event :=
  [.serve 1 (.putData (.success ())), .deliver 1,
   .serve 1 (.downloadURL (.success ⟨"t", Nat.one_pos⟩)), .deliver 1,
   .serve 1 (.setData (.success ()))]

theorem not_dropped_signUp :
    ∃ a₀ a₁ a, run next (initial {}) signUp = some a₀ ∧
      a₀.next (.tap .profileContinue) = some a₁ ∧ run next a₁ callbacks = some a ∧
      (Written [("occupation", "poet"), ("age", ""), ("height", ""), ("gender", ""),
        ("country of origin", ""), ("country raised in", "")] (a.device.deedsOf 1) ∨
        Told (a.device.deedsOf 1)) := by
  refine ⟨_, _, _, rfl, rfl, rfl, ?_⟩
  have h := @not_dropped_iff {} signUp callbacks _ _ _ _ .profileContinue _ rfl rfl rfl
    ⟨rfl, rfl⟩ rfl rfl rfl
  refine h.2.mpr ⟨rfl, rfl, fun ans hmem => ?_⟩
  have hans : .serve 1 ans ∈ callbacks := hmem
  simp only [callbacks, List.mem_cons, Event.serve.injEq, true_and, reduceCtorEq,
    List.not_mem_nil, false_or, or_false] at hans
  rcases hans with rfl | rfl | rfl <;> rfl

/-- The form on the screen after `signUp`. -/
def poetsPage : MyProfileViewController :=
  { occupationTextField := ⟨"poet"⟩, image := some ⟨some [1]⟩, currentUserDocId := "0" }

/-- The upload is refused after the page has moved on. -/
theorem refused_upload_dropped :
    ∃ a₀ a₁ a, run next (initial {}) signUp = some a₀ ∧
      a₀.shownController = some (.myProfile poetsPage) ∧
      (Invocation.profileContinue poetsPage).Complete ∧
      a₀.next (.tap .profileContinue) = some a₁ ∧
      a₁.shownController = some (.myProfile2 {}) ∧
      run next a₁ [.serve 1 (.putData (.failure ⟨"no network"⟩)), .deliver 1] = some a ∧
      a.device.Settled 1 ∧
      ¬ (Written (Invocation.profileContinue poetsPage).typed (a.device.deedsOf 1) ∨
        Told (a.device.deedsOf 1)) := by
  refine ⟨_, _, _, rfl, rfl, ⟨rfl, rfl⟩, rfl, rfl, rfl, rfl, ?_⟩
  have hstage : Upload (MyProfileViewController.storageProfileRef "ada") ⟨[1], "image/jpg"⟩
      poetsPage.submitted none _ := .uploadFailed ⟨"no network"⟩
  exact hstage.written_or_told_iff.not.mpr
    (not_all_succeeded (List.mem_cons_of_mem _ List.mem_cons_self) rfl)

end App

end Pompeius
