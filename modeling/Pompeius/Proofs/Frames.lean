import Pompeius.Lib.Ensures
import Pompeius.Proofs.Soundness

/-!
# Who writes on which screen

Every operation of the app is performed by one controller, and `ActsOn` is
what it leaves alone: the other controllers, and the fact that a controller
out of the window stays out of it. There is one rule for each function of the
model, so that none of them is unfolded again.

One event makes at most one controller act, and it is the one in the window or
one that waits for an answer (`exists_actor`). A controller that is neither is
therefore never written on again: `Left` is that state, and `Left.of_run` that
it is kept, whatever happens.
-/

namespace Pompeius

open Lib

def Controller.errorLabel : Controller → Option UILabel
  | login self => some self.errorLabel
  | register self => some self.errorLabel
  | myProfile self => some self.errorLabel
  | myProfile2 self => some self.errorLabel
  | _ => none

namespace App

/-- `a'` is `a` after controller `id` did something: the other controllers are
as they were, and none that was out of the window has come back. -/
structure ActsOn (id : Nat) (a a' : App) : Prop where
  others : ∀ j < a.controllers.length, j ≠ id → a'.controllers[j]? = a.controllers[j]?
  back : ∀ j < a.controllers.length, a'.shown = some j → a.shown = some j
  length : a.controllers.length ≤ a'.controllers.length

namespace ActsOn

variable {id : Nat} {a a' a'' : App}

theorem refl (id : Nat) (a : App) : ActsOn id a a :=
  ⟨fun _ _ _ => rfl, fun _ _ h => h, Nat.le_refl _⟩

theorem trans (h : ActsOn id a a') (h' : ActsOn id a' a'') : ActsOn id a a'' where
  others j hj hne := by rw [h'.others j (Nat.lt_of_lt_of_le hj h.length) hne, h.others j hj hne]
  back j hj hshown := h.back j hj (h'.back j (Nat.lt_of_lt_of_le hj h.length) hshown)
  length := Nat.le_trans h.length h'.length

theorem update (id : Nat) (a : App) (c : Controller) : ActsOn id a (a.update id c) where
  others j _ hne := List.getElem?_set_ne (Ne.symm hne)
  back _ _ h := h
  length := by simp [App.update]

theorem arrive (id : Nat) (a : App) (c : Controller) : ActsOn id a (a.arrive c) where
  others j hj _ := List.getElem?_append_left hj
  back j hj hshown := by
    have hlast : some a.controllers.length = some j := hshown
    rw [Option.some.inj hlast] at hj
    exact absurd hj (Nat.lt_irrefl j)
  length := by simp [App.arrive]

theorem present (id : Nat) (a : App) (c : Controller) :
    Ensures (a.present id c) (ActsOn id a) := by
  unfold App.present
  split
  · exact .bind (Q := fun _ => True) (fun _ _ => trivial) fun _ _ => .ok (arrive id a c)
  · exact .ok (refl id a)

theorem prepare (id : Nat) (a : App) (segue : Segue) (destination : Controller) :
    Ensures (a.prepare id segue destination) fun p => ActsOn id a p.1 := by
  unfold App.prepare
  split
  · split
    · split
      · exact .ok ⟨(update id a _).others, fun _ _ h => h, (update id a _).length⟩
      · exact .error _ _
    · exact .ok (refl id a)
  · exact .ok (refl id a)

theorem perform (id : Nat) (a : App) (segue : Segue) :
    Ensures (a.perform id segue) (ActsOn id a) :=
  .bind (prepare id a segue _) fun p hp =>
    (present id p.1 p.2).mono fun _ h => hp.trans h

theorem performSegue (id : Nat) (a : App) (identifier : String) :
    Ensures (a.performSegue id identifier) (ActsOn id a) := by
  unfold App.performSegue
  split
  · exact .ok (refl id a)
  · split
    · exact .error _ _
    · exact perform id a _

theorem setRoot (id : Nat) (a : App) (identifier : String) :
    Ensures (a.setRoot id identifier) (ActsOn id a) := by
  refine .bind (Q := fun _ => True) (fun _ _ => trivial) fun c _ => ?_
  split
  · split
    · exact .bind (Q := fun _ => True) (fun _ _ => trivial) fun _ _ => .ok (arrive id a _)
    · exact .ok ⟨fun _ _ _ => rfl, fun _ _ h => (nomatch h), Nat.le_refl _⟩
  · exact .ok (refl id a)

theorem effects (id : Nat) (a : App) (ui : List UIEffect) :
    Ensures (a.effects id ui) (ActsOn id a) := by
  refine .foldlM (refl id) (fun _ _ _ h h' => h.trans h') (fun a e => ?_) ui a
  cases e with
  | showError message =>
      rw [App.effect]
      split
      · exact .ok (update id a _)
      · exact .ok (refl id a)
  | performSegue identifier => exact performSegue id a identifier
  | setRoot identifier => exact setRoot id a identifier

theorem withDevice {d : Device} (h : ActsOn id (a.withDevice d) a') : ActsOn id a a' :=
  ⟨h.others, h.back, h.length⟩

theorem submit (id : Nat) (a : App) (h : Invocation) :
    Ensures (a.submit id h) (ActsOn id a) :=
  .bind (Q := fun _ => True) (fun _ _ => trivial) fun p _ =>
    (effects id (a.withDevice p.1) p.2).mono fun _ hacts => hacts.withDevice

theorem send (id : Nat) (a : App) (selector : Selector) :
    Ensures (a.send id selector) (ActsOn id a) := by
  unfold App.send
  split
  · exact .ok (refl id a)
  · split
    · exact submit id a _
    · exact performSegue id a _
    · exact .ok (refl id a)
    · exact .error _ _

theorem touch (id : Nat) (a : App) (b : Button) : Ensures (a.touch id b) (ActsOn id a) := by
  have htrans : ∀ a a' a'' : App, ActsOn id a a' → ActsOn id a' a'' → ActsOn id a a'' :=
    fun _ _ _ h h' => h.trans h'
  refine .bind (.foldlM (refl id) htrans (fun a (action : Action) => send id a action.selector) _ a)
    fun a' ha' => ?_
  refine (Ensures.foldlM (refl id) htrans (fun a segue => perform id a segue) _ a').mono ?_
  exact fun a'' h => ha'.trans h

end ActsOn

/-- The controllers that an event can make act. -/
inductive Actor (a : App) : Nat → Prop
  | shown {id : Nat} : a.shown = some id → Actor a id
  | waiting {i : Nat} {t : Tap} {call : Call} : a.device.taps[i]? = some t →
      a.device.calls i = some call → Actor a t.self

section

variable {a a' : App} {e : Event} {id : Nat}

theorem exists_actor (ha : Sound a) (h : a.next e = some a') :
    ∃ id, Actor a id ∧ ActsOn id a a' := by
  have hstep := step_of_next h
  obtain ⟨id, c, hid, hc⟩ := ha.exists_shown
  -- an event that writes on no screen at all
  have hnone : a'.controllers = a.controllers → a'.shown = a.shown →
      ∃ id, Actor a id ∧ ActsOn id a a' := by
    intro hcontrollers hshown
    refine ⟨id, .shown hid, ?_, fun j _ hj => hshown ▸ hj, ?_⟩
    · intro j _ _
      rw [hcontrollers]
    · rw [hcontrollers]
  cases e with
  | tap b =>
      obtain ⟨id', c', hid', -, -, htouch⟩ := step_tap ha hstep
      exact ⟨id', .shown hid', ActsOn.touch id' a b a' htouch.symm⟩
  | type field text =>
      rw [step, hid, shownController_eq hid hc] at hstep
      obtain ⟨c', -, heq⟩ := Option.map_eq_some_iff.mp hstep
      cases heq
      exact ⟨id, .shown hid, .update id a c'⟩
  | pickImage editedImage =>
      rw [step, hid, shownController_eq hid hc] at hstep
      obtain ⟨c', -, heq⟩ := Option.map_eq_some_iff.mp hstep
      cases heq
      exact ⟨id, .shown hid, .update id a c'⟩
  | tapGoogle =>
      rw [step] at hstep
      split at hstep
      · cases hstep
        exact hnone rfl rfl
      · cases hstep
  | googleSignIn user =>
      rw [step] at hstep
      split at hstep
      · cases hsign : AppDelegate.sign user with
        | error t => rw [hsign] at hstep; cases hstep
        | ok line =>
            rw [hsign] at hstep
            cases hstep
            exact hnone rfl rfl
      · cases hstep
  | serve i ans =>
      obtain ⟨d, -, heq, -⟩ := spec_serve hstep
      cases heq
      exact hnone rfl rfl
  | deliver i =>
      obtain ⟨req, ans, eff, hcall, -, -, heq⟩ := step_deliver hstep
      obtain ⟨t, ht⟩ := ha.lives.exists_tap hcall
      have ht' : (a.device.resumed i req ans eff).taps[i]? = some t := ht
      rw [refresh_some ht'] at heq
      exact ⟨t.self, .waiting ht hcall,
        (ActsOn.effects t.self _ eff.ui a' heq.symm).withDevice⟩
  | announce =>
      obtain ⟨d, -, heq, -⟩ := spec_announce hstep
      cases heq
      exact hnone rfl rfl
  | auth user =>
      cases hstep
      exact hnone rfl rfl

/-! ## A controller that nothing writes on -/

/-- What stands on the error label of a controller, if it has one. -/
def errorLabel (a : App) (id : Nat) : Option UILabel :=
  a.controllers[id]?.bind Controller.errorLabel

/-- No tap on the controller waits for an answer. -/
def Idle (id : Nat) (d : Device) : Prop :=
  ∀ i t, d.taps[i]? = some t → t.self = id → d.calls i = none

theorem idle_of_run {d d' : Device} {devs : List Device.Event} (hidle : Idle id d)
    (h : run Device.next d devs = some d') (hdevs : ∀ inv, .invoke id inv ∉ devs) :
    Idle id d' := by
  refine run_rec (motive := fun devs d' => (∀ inv, .invoke id inv ∉ devs) → Idle id d')
    (fun _ => hidle) (fun {es d e d'} _ ih hs hno => ?_) h hdevs
  have hd := ih fun inv hmem => hno inv (List.mem_append_left _ hmem)
  have hlast : ∀ inv, e ≠ .invoke id inv := by
    rintro inv rfl
    exact hno inv (List.mem_append_right _ List.mem_cons_self)
  -- the call that moves is not one of the controller's
  have hkeep : ∀ {i : Nat} {call call' : Option Call}, d.calls i = call → call ≠ none →
      ∀ j t, d.taps[j]? = some t → t.self = id → Function.update d.calls i call' j = none := by
    intro i call call' hcall hsome j t ht hself
    have hj := hd j t ht hself
    have hne : j ≠ i := by
      rintro rfl
      exact hsome (hcall ▸ hj)
    rw [Function.update_of_ne hne, hj]
  cases Device.step_of_next hs with
  | @invoke self inv eff heff =>
      intro i t ht hself
      change (d.taps ++ [_])[i]? = some t at ht
      show Function.update d.calls d.taps.length _ i = none
      rcases Nat.lt_or_ge i d.taps.length with hi | hi
      · rw [List.getElem?_append_left hi] at ht
        rw [Function.update_of_ne (Nat.ne_of_lt hi)]
        exact hd i t ht hself
      · have hmem : t ∈ [Tap.mk self inv d.currentUser] := by
          rw [List.getElem?_append_right hi] at ht
          exact List.mem_of_getElem? ht
        rw [List.mem_singleton.mp hmem] at hself
        cases hself
        exact absurd rfl (hlast inv)
  | serve hcall _ _ => exact hkeep hcall (Option.some_ne_none _)
  | deliver hcall _ _ => exact hkeep hcall (Option.some_ne_none _)
  | announce _ => exact hd
  | auth => exact hd

/-- A controller out of the window that waits for nothing, and what stands on
its label. -/
structure Left (id : Nat) (label : UILabel) (a : App) : Prop where
  label : a.errorLabel id = some label
  hidden : a.shown ≠ some id
  idle : Idle id a.device

theorem mem_deviceEvents_invoke {inv : Invocation} (h : .invoke id inv ∈ a.deviceEvents e) :
    a.shown = some id := by
  cases e with
  | tap b =>
      rw [deviceEvents] at h
      split at h
      · rename_i id' c hid' _
        cases hsub : b.submission c with
        | none => rw [hsub] at h; cases h
        | some inv' =>
            rw [hsub] at h
            cases List.mem_singleton.mp h
            exact hid'
      · cases h
  | _ => simp [deviceEvents] at h

theorem Left.next {label : UILabel} (ha : Sound a) (h : Left id label a)
    (hnext : a.next e = some a') : Left id label a' := by
  obtain ⟨c, hc, hlabel⟩ := Option.bind_eq_some_iff.mp h.label
  have hlt := (List.getElem?_eq_some_iff.mp hc).1
  obtain ⟨j, hactor, hacts⟩ := exists_actor ha hnext
  have hne : id ≠ j := by
    rintro rfl
    cases hactor with
    | shown hid => exact h.hidden hid
    | @waiting i t call ht hcall =>
        rw [h.idle i t ht rfl] at hcall
        cases hcall
  refine ⟨?_, fun hshown => h.hidden (hacts.back id hlt hshown), ?_⟩
  · rw [errorLabel, hacts.others id hlt hne]
    exact h.label
  · refine idle_of_run h.idle (survives_of_next ha hnext).device fun inv hmem => ?_
    exact h.hidden (mem_deviceEvents_invoke hmem)

theorem Left.of_run {label : UILabel} {evs : List Event} (ha : Sound a) (h : Left id label a)
    (hrun : run App.next a evs = some a') : Left id label a' :=
  (run_invariant (P := fun a => Sound a ∧ Left id label a)
    (fun ih hs => ⟨(survives_of_next ih.1 hs).sound, ih.2.next ih.1 hs⟩) ⟨ha, h⟩ hrun).2

end

end App

end Pompeius
