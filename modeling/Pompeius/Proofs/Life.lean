import Pompeius.Model.Device
import Pompeius.Proofs.Handlers

/-!
# A tap lives its own life

Whatever the schedule, what happens to one tap depends on nothing but its own
answers. `Life t call deeds` says what a tap can have in flight and on record,
and it mentions no device: a tap begins by running its handler, an answer that
fits the call in flight is put on record, and a delivered answer runs the
completion handler, which may put the next call in flight.

`life_of_run` is the simulation: on a device reached by any run, every tap
made so far is somewhere in its life. The step lemma behind it is the frame
fact that an event of one tap changes neither the call nor the record of
another. Everything proved about single taps is proved by following a life,
and the schedule never enters.

`Device.Step` is the step function read backwards, one constructor for each
kind of event.
-/

namespace Pompeius

open Lib

namespace Device

/-- What an event does to a device. -/
inductive Step (d : Device) : Event → Device → Prop
  | invoke {self h eff} : h.run d.currentUser = .ok eff →
      Step d (.invoke self h) (d.tapped self h eff)
  | serve {i r a} : d.calls i = some ⟨r, none⟩ → d.permits r a = true →
      (r.isWrite = true → d.nextWrite = some i) →
      Step d (.serve i a) (d.answered i r a)
  | deliver {i r a eff} : d.calls i = some ⟨r, some a⟩ → ¬ d.Unannounced i →
      completion r a = .ok eff → Step d (.deliver i) (d.resumed i r a eff)
  | announce {x rest} : d.announcements = x :: rest → Step d .announce (d.heard x rest)
  | auth {user} : Step d (.auth user) (d.switched user)

theorem step_of_next {d d' : Device} {e : Event} (h : d.next e = some d') :
    Step d e d' := by
  unfold next at h
  cases e with
  | invoke self inv =>
      obtain ⟨eff, heff⟩ := inv.run_ok d.currentUser
      rw [step, invoke, heff] at h
      cases h
      exact .invoke heff
  | serve i a =>
      cases hcall : d.calls i with
      | none => simp only [step, hcall] at h; cases h
      | some call =>
          obtain ⟨r, answer⟩ := call
          cases answer with
          | some _ => simp only [step, hcall] at h; cases h
          | none =>
              simp only [step, hcall, serve] at h
              split at h
              · cases h
                rename_i hs
                split at hs
                · rename_i hc
                  cases hs
                  exact .serve hcall hc.1 hc.2
                · cases hs
              · cases h
  | deliver i =>
      cases hcall : d.calls i with
      | none => simp only [step, hcall] at h; cases h
      | some call =>
          obtain ⟨r, answer⟩ := call
          cases answer with
          | none => simp only [step, hcall] at h; cases h
          | some a =>
              obtain ⟨eff, heff⟩ := completion_ok r a
              simp only [step, hcall, deliver, heff] at h
              by_cases hun : d.Unannounced i
              · rw [if_pos hun] at h
                cases h
              · rw [if_neg hun] at h
                cases h
                exact .deliver hcall hun heff
  | announce =>
      cases hann : d.announcements with
      | nil => simp only [step, hann] at h; cases h
      | cons x rest =>
          simp only [step, hann] at h
          cases h
          exact .announce hann
  | auth user =>
      cases h
      exact .auth

theorem next_of_step {d d' : Device} {e : Event} (h : Step d e d') : d.next e = some d' := by
  unfold next
  cases h with
  | invoke heff =>
      rw [step, invoke, heff]
      rfl
  | serve hcall hperm hhead =>
      simp only [step, hcall, serve]
      rw [if_pos ⟨hperm, hhead⟩]
      rfl
  | deliver hcall hun heff =>
      simp only [step, hcall, deliver, heff]
      rw [if_neg hun]
      rfl
  | announce hann =>
      simp only [step, hann]
  | auth => rfl

/-- Taps and history only grow, each at its own end. -/
theorem Step.grows {d d' : Device} {e : Event} (h : Step d e d') :
    d.taps <+: d'.taps ∧ d.history <:+ d'.history := by
  cases h with
  | invoke _ => exact ⟨List.prefix_append _ _, List.suffix_append _ _⟩
  | serve _ _ _ => exact ⟨List.prefix_refl _, List.suffix_cons _ _⟩
  | deliver _ _ _ =>
      exact ⟨List.prefix_refl _, (List.suffix_cons _ _).trans (List.suffix_append _ _)⟩
  | announce _ => exact ⟨List.prefix_refl _, List.suffix_refl _⟩
  | auth => exact ⟨List.prefix_refl _, List.suffix_refl _⟩

theorem grows_of_run {d d' : Device} {evs : List Event} (h : run next d evs = some d') :
    d.taps <+: d'.taps ∧ d.history <:+ d'.history := by
  refine run_invariant (P := fun d' => d.taps <+: d'.taps ∧ d.history <:+ d'.history)
    (fun {t e t'} ih hs => ?_) ⟨List.prefix_refl _, List.suffix_refl _⟩ h
  have hgrows := (step_of_next hs).grows
  exact ⟨ih.1.trans hgrows.1, ih.2.trans hgrows.2⟩

theorem taps_of_run {d d' : Device} {evs : List Event} (h : run next d evs = some d')
    (hevs : ∀ self inv, .invoke self inv ∉ evs) : d'.taps = d.taps := by
  induction evs generalizing d with
  | nil =>
      cases h
      rfl
  | cons e evs ih =>
      obtain ⟨t, ht, hrest⟩ := run_cons_some.mp h
      rw [ih hrest fun self inv hmem => hevs self inv (List.mem_cons_of_mem e hmem)]
      cases step_of_next ht with
      | invoke _ => exact absurd List.mem_cons_self (hevs _ _)
      | _ => rfl

/-- The part of a history that is about tap `i`. -/
def ofTap (i : Nat) (hist : List (Nat × Deed)) : List Deed :=
  hist.filterMap fun p => if p.1 = i then some p.2 else none

/-- The record of tap `i`, newest first. -/
def deedsOf (d : Device) (i : Nat) : List Deed := ofTap i d.history

end Device

/-! ## Lives -/

/-- The call a handler run puts in flight. -/
def Effects.call (eff : Effects) : Option Call := eff.request.map fun r => { request := r }

/-- What is left of a call once it was answered. -/
def Request.after (r : Request) (a : Answer) : Option Call :=
  if r.awaits then some ⟨r, some a⟩ else none

inductive Life (t : Tap) : Option Call → List Deed → Prop
  | tap {eff} : t.invocation.run t.user = .ok eff → Life t eff.call (Device.deeds eff)
  | serve {r a deeds} : Life t (some ⟨r, none⟩) deeds → r.fits a = true →
      Life t (r.after a) (.served r a :: deeds)
  | deliver {r a eff deeds} : Life t (some ⟨r, some a⟩) deeds → completion r a = .ok eff →
      Life t eff.call (Device.deeds eff ++ .delivered r a :: deeds)

theorem fits_of_permits {b : Backend} {r : Request} {a : Answer}
    (h : b.permits r a = true) : r.fits a = true := by
  unfold Backend.permits at h
  split at h
  · rfl
  · rfl
  · exact h

namespace Device

theorem deedsOf_append {i : Nat} {ds : List Deed} {hist : List (Nat × Deed)} {d : Device}
    (h : d.history = ds.map (i, ·) ++ hist) (j : Nat) :
    d.deedsOf j = (if j = i then ds else []) ++ ofTap j hist := by
  rw [deedsOf, h, ofTap, List.filterMap_append]
  congr 1
  split
  · rename_i hji
    subst hji
    induction ds with
    | nil => rfl
    | cons x ds ih => simp
  · rename_i hji
    induction ds with
    | nil => rfl
    | cons x ds ih => simp [Ne.symm hji]

/-- Every tap made is somewhere in its life, and nothing is on record for a
number no tap has. -/
structure Lives (d : Device) : Prop where
  born : ∀ i t, d.taps[i]? = some t → Life t (d.calls i) (d.deedsOf i)
  unborn : ∀ i, d.taps.length ≤ i → d.calls i = none ∧ d.deedsOf i = []

theorem lives_launch (b : Backend) : Lives (launch b) where
  born i t h := by cases h
  unborn i _ := ⟨rfl, rfl⟩

/-- A call in flight belongs to a tap that was made. -/
theorem Lives.exists_tap {d : Device} (hl : Lives d) {i : Nat} {call : Call}
    (h : d.calls i = some call) : ∃ t, d.taps[i]? = some t := by
  rcases Nat.lt_or_ge i d.taps.length with hi | hi
  · exact ⟨d.taps[i], List.getElem?_eq_getElem hi⟩
  · rw [(hl.unborn i hi).1] at h
    cases h

theorem lives_tapped {d : Device} (hl : Lives d) {self : Nat} {h : Invocation} {eff : Effects}
    (heff : h.run d.currentUser = .ok eff) : Lives (d.tapped self h eff) := by
  have hhist : (d.tapped self h eff).history =
      (deeds eff).map (d.taps.length, ·) ++ d.history := rfl
  have hdeeds := deedsOf_append hhist
  constructor
  · intro i t ht
    rcases Nat.lt_trichotomy i d.taps.length with hi | hi | hi
    · have hold : d.taps[i]? = some t := by
        rw [← ht]
        exact (List.getElem?_append_left hi).symm
      have hne : i ≠ d.taps.length := Nat.ne_of_lt hi
      rw [hdeeds i, if_neg hne]
      show Life t (Function.update d.calls _ _ i) _
      rw [Function.update_of_ne hne]
      exact hl.born i t hold
    · subst hi
      have hnew : t = Tap.mk self h d.currentUser := by
        have hlast := List.getElem?_concat_length (l := d.taps) (a := Tap.mk self h d.currentUser)
        exact Option.some.inj (ht.symm.trans hlast)
      rw [hdeeds, if_pos rfl]
      show Life t (Function.update d.calls _ _ _) (deeds eff ++ d.deedsOf d.taps.length)
      rw [Function.update_self, (hl.unborn _ (Nat.le_refl _)).2, List.append_nil, hnew]
      exact .tap heff
    · have hlen : (d.tapped self h eff).taps.length ≤ i := by
        show (d.taps ++ [_]).length ≤ i
        rw [List.length_append, List.length_singleton]
        omega
      rw [List.getElem?_eq_none hlen] at ht
      cases ht
  · intro i hi
    have hi' : d.taps.length + 1 ≤ i := by
      simpa [tapped, issue] using hi
    have hne : i ≠ d.taps.length := by omega
    rw [hdeeds i, if_neg hne]
    refine ⟨?_, (hl.unborn i (by omega)).2⟩
    show Function.update d.calls _ _ i = none
    rw [Function.update_of_ne hne]
    exact (hl.unborn i (by omega)).1

/-- An event of tap `i` that moves its life on leaves every other as it was. -/
theorem lives_update {d d' : Device} (hl : Lives d) {i : Nat} {ds : List Deed}
    {call : Option Call} (htaps : d'.taps = d.taps)
    (hcalls : d'.calls = Function.update d.calls i call)
    (hhist : d'.history = ds.map (i, ·) ++ d.history) (hi : ∃ t, d.taps[i]? = some t)
    (hlife : ∀ t, Life t (d.calls i) (d.deedsOf i) → Life t call (ds ++ d.deedsOf i)) :
    Lives d' := by
  have hdeeds := deedsOf_append hhist
  constructor
  · intro j t ht
    rw [htaps] at ht
    rw [hcalls, hdeeds j]
    by_cases hj : j = i
    · subst hj
      rw [if_pos rfl, Function.update_self]
      exact hlife t (hl.born j t ht)
    · rw [if_neg hj, Function.update_of_ne hj]
      exact hl.born j t ht
  · intro j hj
    rw [htaps] at hj
    have hne : j ≠ i := by
      rintro rfl
      obtain ⟨t, ht⟩ := hi
      rw [List.getElem?_eq_none hj] at ht
      cases ht
    rw [hcalls, hdeeds j, if_neg hne, Function.update_of_ne hne]
    exact hl.unborn j hj

theorem lives_step {d d' : Device} {e : Event} (hl : Lives d) (h : Step d e d') :
    Lives d' := by
  cases h with
  | invoke heff => exact lives_tapped hl heff
  | @serve i r a hcall hperm _ =>
      have hhist : (d.answered i r a).history = [Deed.served r a].map (i, ·) ++ d.history := rfl
      refine lives_update hl rfl rfl hhist (hl.exists_tap hcall) fun t hlife => ?_
      rw [hcall] at hlife
      exact .serve hlife (fits_of_permits hperm)
  | @deliver i r a eff hcall _ heff =>
      have hhist : (d.resumed i r a eff).history =
          (deeds eff ++ [Deed.delivered r a]).map (i, ·) ++ d.history := by
        rw [List.map_append, List.append_assoc]
        rfl
      refine lives_update hl rfl rfl hhist (hl.exists_tap hcall) fun t hlife => ?_
      rw [hcall] at hlife
      rw [List.append_assoc]
      exact .deliver hlife heff
  | announce _ => exact ⟨hl.born, hl.unborn⟩
  | auth => exact ⟨hl.born, hl.unborn⟩

theorem lives_of_run {b : Backend} {evs : List Event} {d : Device}
    (h : run next (launch b) evs = some d) : Lives d :=
  run_invariant (P := Lives) (fun hl hs => lives_step hl (step_of_next hs))
    (lives_launch b) h

/-- The simulation: after any run, every tap is somewhere in its life. -/
theorem life_of_run {b : Backend} {evs : List Event} {d : Device}
    (h : run next (launch b) evs = some d) {i : Nat} {t : Tap}
    (ht : d.taps[i]? = some t) : Life t (d.calls i) (d.deedsOf i) :=
  (lives_of_run h).born i t ht

end Device

end Pompeius
