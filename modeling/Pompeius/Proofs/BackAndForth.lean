import Pompeius.Proofs.Soundness
import Pompeius.Proofs.Documents
import Pompeius.Proofs.Stages

/-!
# Back and forward again

A back button brings up a new controller, so whoever turns back and continues
submits a blank page. Page 1 without an image stops short of its write. Page 2
has nothing to stop it: its blank fields are written and merged over the ones
that were there.

`BackAndForth` is the grammar of the turns, with the backend's events anywhere
in between; a turn starts from the survey introduction or from page 2 and ends
where it started. `Adrift` is what holds of the device all the while, and
`Adrift.of_run` follows it along the grammar. All that is ever in flight is one
kind of write, and writing it twice is the same as writing it once, so the
document is either as it was or has its five page-2 fields blank, by whether the
backend has accepted anything (`document_unchanged_iff`).
-/

namespace Pompeius

open Lib

/-- The write of a page 2 nobody has typed into. -/
def blankWrite : DocumentWrite := ({} : MyProfile2ViewController).submitted

/-- Merging the same fields twice is merging them once. -/
theorem DocumentWrite.apply_apply {w : DocumentWrite} (h : w.merge = true) (c : Collection) :
    w.apply (w.apply c) = w.apply c := by
  funext document
  by_cases hdoc : document = w.document
  · subst hdoc
    rw [apply_self, apply_self, result, if_pos h, result, if_pos h, Option.getD_some]
    congr 1
    exact overlay_eq_self_iff.mpr fun k v hkv => overlay_of_lookup hkv
  · rw [apply_of_ne hdoc]

theorem blankWrite_lookup {k : String} (hk : k ∈ profile2Keys) :
    blankWrite.data.lookup k = some "" := by
  simp only [profile2Keys, List.mem_cons, List.not_mem_nil, or_false] at hk
  rcases hk with rfl | rfl | rfl | rfl | rfl <;> rfl

/-- Writing the blank page changes nothing only where it was written before. -/
theorem blankWrite_apply_eq_iff {c : Collection} :
    blankWrite.apply c "new" = c "new" ↔
      ∃ D, c "new" = some D ∧ ∀ k ∈ profile2Keys, D k = some "" := by
  have happly : blankWrite.apply c "new" =
      some (((c "new").getD Doc.empty).overlay blankWrite.data) :=
    blankWrite.apply_self c
  rw [happly]
  cases hc : c "new" with
  | none => exact iff_of_false (Option.some_ne_none _) (by simp)
  | some D =>
      rw [Option.getD_some, Option.some.injEq, overlay_eq_self_iff]
      constructor
      · intro h
        exact ⟨D, rfl, fun k hk => h k "" (blankWrite_lookup hk)⟩
      · rintro ⟨D', hD, h⟩ k v hkv
        cases hD
        by_cases hk : k ∈ profile2Keys
        · rw [blankWrite_lookup hk] at hkv
          rw [h k hk, hkv]
        · have hnone : blankWrite.data.lookup k = none := lookup_eq_none_iff_not_mem.mpr hk
          rw [hnone] at hkv
          cases hkv

namespace App

/-- What the backend does, and what comes of it. -/
def Event.OfBackend : Event → Prop
  | .serve _ _ | .deliver _ | .announce => True
  | _ => False

/-- A back button and the Continue of the screen it leads to. -/
def turns : List (Button × Button) :=
  [(.surveyBack, .profile2Continue), (.profile2Back, .profileContinue)]

theorem mem_turns {back forth : Button} :
    (back, forth) ∈ turns ↔ back = .surveyBack ∧ forth = .profile2Continue ∨
      back = .profile2Back ∧ forth = .profileContinue := by
  simp [turns]

/-- Turns back and forward, any number of them, and nothing else but what the
backend does meanwhile. -/
inductive BackAndForth : List Event → Prop
  | done : BackAndForth []
  | wait {e : Event} {evs : List Event} : e.OfBackend → BackAndForth evs →
      BackAndForth (e :: evs)
  | turn {back forth : Button} {mid evs : List Event} : (back, forth) ∈ turns →
      (∀ e ∈ mid, e.OfBackend) → BackAndForth evs →
      BackAndForth (.tap back :: (mid ++ .tap forth :: evs))

/-- Some call was answered with a success. -/
def Accepted (evs : List Event) : Prop :=
  ∃ i ans, .serve i ans ∈ evs ∧ ans.succeeded = true

theorem accepted_snoc {evs : List Event} {e : Event} :
    Accepted (evs ++ [e]) ↔ Accepted evs ∨ ∃ i ans, e = .serve i ans ∧ ans.succeeded = true := by
  simp only [Accepted, List.mem_append, List.mem_singleton, or_and_right, exists_or, eq_comm]

/-- The device while the user turns back and forth from the scene `s`. -/
structure Adrift (s : Scene) (user : User) (users : Collection) (evs : List Event)
    (d : Device) : Prop where
  user : d.currentUser = some user
  calls : ∀ i call, d.calls i = some call →
    s = .surveyIntroduction ∧ call = ⟨.setData blankWrite false, none⟩
  users : s = .surveyIntroduction ∧ Accepted evs ∧ d.users = blankWrite.apply users ∨
    ¬ Accepted evs ∧ d.users = users

section

variable {s : Scene} {user : User} {users : Collection} {evs : List Event} {a a' : App}

theorem Adrift.served {d : Device} (hd : Adrift s user users evs d) {i : Nat} {r : Request}
    {ans : Answer} (hcall : d.calls i = some ⟨r, none⟩) (hperm : d.permits r ans = true) :
    Adrift s user users (evs ++ [.serve i ans]) (d.answered i r ans) := by
  obtain ⟨hs, hblank⟩ := hd.calls i _ hcall
  cases hblank
  obtain ⟨reply, rfl⟩ := fits_setData (fits_of_permits hperm)
  refine ⟨hd.user, fun j call hj => ?_, ?_⟩
  · by_cases hji : j = i
    · subst hji
      have hnone : (d.answered j (.setData blankWrite false) (.setData reply)).calls j = none :=
        Function.update_self _ _ _
      rw [hnone] at hj
      cases hj
    · have hold : (d.answered i (.setData blankWrite false) (.setData reply)).calls j =
          d.calls j := Function.update_of_ne hji _ _
      rw [hold] at hj
      exact hd.calls j call hj
  · have hmerge : blankWrite.merge = true := rfl
    cases reply with
    | failure e =>
        have hsame : Accepted (evs ++ [.serve i (.setData (.failure e))]) ↔ Accepted evs := by
          simp [accepted_snoc, Answer.succeeded, Reply.value]
        rw [hsame]
        exact hd.users
    | success _ =>
        refine .inl ⟨hs, accepted_snoc.mpr (.inr ⟨i, _, rfl, rfl⟩), ?_⟩
        show blankWrite.apply d.users = _
        rcases hd.users with ⟨-, -, husers⟩ | ⟨-, husers⟩
        · rw [husers, DocumentWrite.apply_apply hmerge]
        · rw [husers]

/-- Nothing the backend does meanwhile is seen on the screen. -/
theorem Adrift.backend (hd : Adrift s user users evs a.device) {e : Event} (he : e.OfBackend)
    (h : a.next e = some a') :
    Adrift s user users (evs ++ [e]) a'.device ∧ a'.shownController = a.shownController := by
  cases e with
  | serve i ans =>
      obtain ⟨d, hnext, hok, -⟩ := spec_serve (step_of_next h)
      cases hok
      generalize d = d' at hnext
      cases Device.step_of_next hnext with
      | serve hcall hperm _ => exact ⟨hd.served hcall hperm, rfl⟩
  | deliver i =>
      obtain ⟨r, ans, eff, hcall, -⟩ := step_deliver (step_of_next h)
      cases (hd.calls i _ hcall).2
  | announce =>
      obtain ⟨d, hnext, hok, -⟩ := spec_announce (step_of_next h)
      cases hok
      generalize d = d' at hnext
      cases Device.step_of_next hnext with
      | announce _ =>
          have hsame : Accepted (evs ++ [.announce]) ↔ Accepted evs := by
            simp [accepted_snoc]
          refine ⟨⟨hd.user, hd.calls, ?_⟩, rfl⟩
          rw [hsame]
          exact hd.users
  | _ => exact he.elim

theorem Adrift.backends (hd : Adrift s user users evs a.device) {mid : List Event}
    (hmid : ∀ e ∈ mid, e.OfBackend) (h : run next a mid = some a') :
    Adrift s user users (evs ++ mid) a'.device ∧ a'.shownController = a.shownController := by
  induction mid generalizing evs a with
  | nil =>
      cases h
      rw [List.append_nil]
      exact ⟨hd, rfl⟩
  | cons e mid ih =>
      obtain ⟨t, ht, hrest⟩ := run_cons_some.mp h
      obtain ⟨hd', hshown⟩ := hd.backend (hmid e List.mem_cons_self) ht
      obtain ⟨hd'', hshown'⟩ := ih hd' (fun e' he' => hmid e' (List.mem_cons_of_mem e he')) hrest
      rw [List.append_assoc] at hd''
      exact ⟨hd'', hshown'.trans hshown⟩

theorem Adrift.tap {d : Device} (hd : Adrift s user users evs d) (b : Button) :
    Adrift s user users (evs ++ [.tap b]) d := by
  have hsame : Accepted (evs ++ [.tap b]) ↔ Accepted evs := by
    simp [accepted_snoc]
  refine ⟨hd.user, hd.calls, ?_⟩
  rw [hsame]
  exact hd.users

/-- A submission that puts nothing but the blank write in flight. -/
theorem Adrift.tapped {d : Device} (hd : Adrift s user users evs d) {id : Nat} {h : Invocation}
    {eff : Effects} (hblank : ∀ r, eff.request = some r →
      s = .surveyIntroduction ∧ r = .setData blankWrite false) :
    Adrift s user users evs (d.tapped id h eff) := by
  refine ⟨hd.user, fun i call hi => ?_, hd.users⟩
  change Function.update d.calls d.taps.length _ i = some call at hi
  by_cases hnew : i = d.taps.length
  · rw [hnew, Function.update_self] at hi
    obtain ⟨r, hr, rfl⟩ := Option.map_eq_some_iff.mp hi
    obtain ⟨hs, rfl⟩ := hblank r hr
    exact ⟨hs, rfl⟩
  · rw [Function.update_of_ne hnew] at hi
    exact hd.calls i call hi

theorem next_tap (ha : Sound a) {b : Button} (h : a.next (.tap b) = some a') :
    ∃ id c, a.shown = some id ∧ a.controllers[id]? = some c ∧ a.shownController = some c ∧
      c.scene = b.scene ∧ a.touch id b = .ok a' := by
  obtain ⟨id, c, hid, hc, hscene, htouch⟩ := step_tap ha (step_of_next h)
  exact ⟨id, c, hid, hc, shownController_eq hid hc, hscene, htouch.symm⟩

/-- The way back is to a new controller. -/
theorem next_back (ha : Sound a) {back forth : Button} (hturn : (back, forth) ∈ turns)
    (h : a.next (.tap back) = some a') :
    a'.device = a.device ∧ a'.shownController = some forth.scene.instantiate ∧
      a.shownController.map Controller.scene = some back.scene := by
  obtain ⟨id, c, hid, hc, hshown, hscene, htouch⟩ := next_tap ha h
  have hplain : back.plain = true := by
    rcases mem_turns.mp hturn with ⟨rfl, -⟩ | ⟨rfl, -⟩ <;> rfl
  rw [touch_plain hid hc hscene hplain] at htouch
  rw [hshown, Option.map_some, hscene]
  rcases mem_turns.mp hturn with ⟨rfl, rfl⟩ | ⟨rfl, rfl⟩
  · cases htouch
    exact ⟨rfl, arrive_shownController _ _, rfl⟩
  · cases htouch
    exact ⟨rfl, arrive_shownController _ _, rfl⟩

/-- The way forward from a new controller. Page 1 makes no call without an
image; page 2 writes itself down blank. -/
theorem Adrift.forth (ha : Sound a) (hd : Adrift s user users evs a.device)
    {back forth : Button} (hturn : (back, forth) ∈ turns) (hs : s = back.scene)
    (hshown : a.shownController = some forth.scene.instantiate)
    (h : a.next (.tap forth) = some a') :
    Adrift s user users (evs ++ [.tap forth]) a'.device ∧
      a'.shownController.map Controller.scene = some s := by
  obtain ⟨id, c, hid, hc, hshown', hscene, htouch⟩ := next_tap ha h
  rw [hshown] at hshown'
  cases hshown'
  rcases mem_turns.mp hturn with ⟨rfl, rfl⟩ | ⟨rfl, rfl⟩
  · have heff : ({} : MyProfile2ViewController).continueButton a.device.currentUser = .ok _ :=
      MyProfile2ViewController.continueButton_eq _ _
    rw [touch_profile2Continue hid hc heff, hd.user] at htouch
    cases htouch
    refine ⟨(hd.tapped fun r hr => ?_).tap _, ?_⟩
    · cases hr
      exact ⟨hs, rfl⟩
    · rw [arrive_shownController, hs]
      rfl
  · have heff : ({} : MyProfileViewController).continueButton a.device.currentUser = .ok _ :=
      MyProfileViewController.continueButton_eq _ _
    rw [touch_profileContinue hid hc heff] at htouch
    cases htouch
    refine ⟨(hd.tapped fun r hr => ?_).tap _, ?_⟩
    · cases hr
    · rw [arrive_shownController, hs]
      rfl

theorem Adrift.of_run (hevs : BackAndForth evs) {pre : List Event} (ha : Sound a)
    (hd : Adrift s user users pre a.device) (hs : a.shownController.map Controller.scene = some s)
    (h : run next a evs = some a') : Adrift s user users (pre ++ evs) a'.device := by
  induction hevs generalizing pre a with
  | done =>
      cases h
      rw [List.append_nil]
      exact hd
  | @wait e evs he _ ih =>
      obtain ⟨t, ht, hrest⟩ := run_cons_some.mp h
      obtain ⟨hd', hshown⟩ := hd.backend he ht
      have hrun := ih (survives_of_next ha ht).sound hd' (hshown ▸ hs) hrest
      rw [List.append_assoc] at hrun
      exact hrun
  | @turn back forth mid evs hturn hmid _ ih =>
      obtain ⟨t₁, hback, hrest⟩ := run_cons_some.mp h
      obtain ⟨t₂, hmid', hrest⟩ := run_append_some.mp hrest
      obtain ⟨t₃, hforth, hrest⟩ := run_cons_some.mp hrest
      obtain ⟨hdevice, hshown, hscene⟩ := next_back ha hturn hback
      have ht₁ := (survives_of_next ha hback).sound
      have ht₂ := ht₁.of_run hmid'
      have hd₁ := hd.tap back
      rw [← hdevice] at hd₁
      obtain ⟨hd₂, hshown₂⟩ := hd₁.backends hmid hmid'
      have hs' : s = back.scene := Option.some.inj (hs.symm.trans hscene)
      obtain ⟨hd₃, hs₃⟩ := hd₂.forth ht₂ hturn hs' (hshown₂.trans hshown) hforth
      have hrun := ih (survives_of_next ht₂ hforth).sound hd₃ hs₃ hrest
      simpa only [List.append_assoc, List.cons_append, List.nil_append] using hrun

theorem document_unchanged_iff {b : Backend} {pre : List Event} {c : Controller}
    (hrun : run next (initial b) pre = some a) (hq : a.device.Quiescent)
    (huser : a.device.currentUser = some user) (hshown : a.shownController = some c)
    (hevs : BackAndForth evs) (h : run next a evs = some a') :
    a'.device.users "new" = a.device.users "new" ↔
      c.scene = .myProfile2 ∨ (∀ i ans, .serve i ans ∈ evs → ans.succeeded = false) ∨
        ∃ D, a.device.users "new" = some D ∧ ∀ k ∈ profile2Keys, D k = some "" := by
  have hd₀ : Adrift c.scene user a.device.users [] a.device := by
    refine ⟨huser, fun i call hi => ?_, .inr ⟨by simp [Accepted], rfl⟩⟩
    rw [hq i] at hi
    cases hi
  have hd := hd₀.of_run hevs ((sound_initial b).of_run hrun) (by rw [hshown]; rfl) h
  rw [List.nil_append] at hd
  rcases hd.users with ⟨hs, ⟨i, ans, hmem, hsucc⟩, husers⟩ | ⟨hnone, husers⟩
  · have hpage1 : c.scene ≠ .myProfile2 := by
      rw [hs]
      decide
    have hrefused : ¬ ∀ i ans, .serve i ans ∈ evs → ans.succeeded = false := by
      intro hall
      rw [hall i ans hmem] at hsucc
      cases hsucc
    rw [husers, blankWrite_apply_eq_iff, or_iff_right hpage1, or_iff_right hrefused]
  · refine iff_of_true (by rw [husers]) (.inr (.inl fun i ans hmem => ?_))
    cases hsucc : ans.succeeded with
    | false => rfl
    | true => exact absurd ⟨i, ans, hmem, hsucc⟩ hnone

end

/-- Signed up, both pages filled in and stored, the survey introduction on
the screen. -/
def filledIn : List Event :=
  [.tap .registerHere, .type .password "passw0rd!", .type .email "ada@example.com",
   .type .firstName "Ada", .type .lastName "Lovelace", .tap .register,
   .serve 0 (.createUser (.success "ada")), .announce, .deliver 0,
   .serve 0 (.setData (.success ())), .deliver 0, .type .occupation "poet", .type .age "36",
   .type .height "1.65", .type .gender "f", .type .countryOrigin "GB", .type .countryRaised "GB",
   .pickImage (some ⟨some [1]⟩), .tap .profileContinue, .serve 1 (.putData (.success ())),
   .deliver 1, .serve 1 (.downloadURL (.success ⟨"t", by decide⟩)), .deliver 1,
   .serve 1 (.setData (.success ())), .type .currentResidence "London",
   .type .employment "none", .type .religiousness "low", .type .citizenship "GB",
   .type .preference "30-40", .tap .profile2Continue, .serve 2 (.setData (.success ()))]

/-- Back and forward once from the survey introduction. -/
def onceMore (reply : Reply Unit) : List Event :=
  [.tap .surveyBack, .tap .profile2Continue, .serve 3 (.setData reply)]

theorem backAndForth_onceMore (reply : Reply Unit) : BackAndForth (onceMore reply) :=
  @BackAndForth.turn .surveyBack .profile2Continue [] _ (by simp [mem_turns]) (by simp)
    (.wait trivial .done)

theorem document_unchanged_refused :
    ∃ a a', run next (initial {}) filledIn = some a ∧
      run next a (onceMore (.failure ⟨"no network"⟩)) = some a' ∧
      a'.device.users "new" = a.device.users "new" := by
  refine ⟨_, _, rfl, rfl, ?_⟩
  refine (@document_unchanged_iff ⟨"ada"⟩ _ _ _ {} filledIn _ rfl (fun i => ?_) rfl rfl
    (backAndForth_onceMore (.failure ⟨"no network"⟩)) rfl).mpr (.inr (.inl fun i ans hmem => ?_))
  · match i with
    | 0 | 1 | 2 => rfl
    | n + 3 => rfl
  · simp only [onceMore, List.mem_cons, reduceCtorEq, Event.serve.injEq, List.not_mem_nil,
      false_or, or_false] at hmem
    rw [hmem.2]
    rfl

/-- The answers on page 2 are gone. -/
theorem document_erased_onceMore :
    ∃ a a', run next (initial {}) filledIn = some a ∧
      run next a (onceMore (.success ())) = some a' ∧ BackAndForth (onceMore (.success ())) ∧
      a.device.Quiescent ∧ a'.device.Quiescent ∧
      (a.device.users "new").bind (· "employment") = some "none" ∧
      (a'.device.users "new").bind (· "employment") = some "" := by
  refine ⟨_, _, rfl, rfl, backAndForth_onceMore _, fun i => ?_, fun i => ?_, rfl, rfl⟩
  · match i with
    | 0 | 1 | 2 => rfl
    | n + 3 => rfl
  · match i with
    | 0 | 1 | 2 | 3 => rfl
    | n + 4 => rfl

end App

end Pompeius
