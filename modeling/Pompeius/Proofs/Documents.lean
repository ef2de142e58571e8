import Pompeius.Lib.Shuffle
import Pompeius.Proofs.Handlers

/-!
# The documents the three handlers write

Registration replaces the document with three fields; the two profile pages
merge seven and five fields into it. The three key sets are disjoint, and the
source keeps them so across three files without saying it anywhere.

Page 1 is written from a delayed callback and page 2 at once, so their writes
interleave in any way. Overlays with disjoint keys commute, hence the
interleaving cannot be observed, and what is left of each page is its last
write: `pages_in_any_order`.
-/

namespace Pompeius

open Lib

def registrationKeys : List String := ["firstName", "lastName", "uid"]

def profileKeys : List String :=
  ["occupation", "age", "height", "gender", "country of origin", "country raised in",
   "profileImageUrl"]

def profile2Keys : List String :=
  ["current residence", "employment", "religion standard", "citizenship", "age preference"]

theorem profileWrite_data (occupation age height gender countryOrigin countryRaised url : String) :
    (MyProfileViewController.profileWrite (MyProfileViewController.userDictData occupation age
      height gender countryOrigin countryRaised) url).data =
      [("occupation", occupation), ("age", age), ("height", height), ("gender", gender),
       ("country of origin", countryOrigin), ("country raised in", countryRaised),
       ("profileImageUrl", url)] := by
  simp [MyProfileViewController.profileWrite, MyProfileViewController.userDictData,
    Dictionary.set, keys]

/-- A write of the page-1 dictionary, with any values. -/
inductive Page1Write : DocumentWrite → Prop
  | intro (occupation age height gender countryOrigin countryRaised url : String) :
      Page1Write (MyProfileViewController.profileWrite (MyProfileViewController.userDictData
        occupation age height gender countryOrigin countryRaised) url)

/-- A write of the page-2 dictionary, with any values. -/
inductive Page2Write : DocumentWrite → Prop
  | intro (currentResidence employment religion citizenship agePreference : String) :
      Page2Write (MyProfile2ViewController.profile2Write currentResidence employment religion
        citizenship agePreference)

theorem Page1Write.keys_eq {w : DocumentWrite} (h : Page1Write w) :
    keys w.data = profileKeys := by
  cases h
  rw [profileWrite_data]
  rfl

theorem Page2Write.keys_eq {w : DocumentWrite} (h : Page2Write w) :
    keys w.data = profile2Keys := by
  cases h
  rfl

/-- Merges its fields into the shared document. -/
def DocumentWrite.Merges (w : DocumentWrite) : Prop := w.document = "new" ∧ w.merge = true

theorem Page1Write.merges {w : DocumentWrite} (h : Page1Write w) : w.Merges := by
  cases h
  exact ⟨rfl, rfl⟩

theorem Page2Write.merges {w : DocumentWrite} (h : Page2Write w) : w.Merges := by
  cases h
  exact ⟨rfl, rfl⟩

/-! ## Applying a list of writes -/

def DocumentWrite.applyAll (c : Collection) (ws : List DocumentWrite) : Collection :=
  ws.foldl (fun c w => w.apply c) c

/-- Merging writes overlay the document one after the other. -/
theorem applyAll_of_merges {c : Collection} {D : Document} {ws : List DocumentWrite}
    (hc : c "new" = some D) (h : ∀ w ∈ ws, w.Merges) :
    DocumentWrite.applyAll c ws "new" = some ((ws.map (·.data)).foldl Doc.overlay D) := by
  induction ws generalizing c D with
  | nil => exact hc
  | cons w ws ih =>
      obtain ⟨hdoc, hmerge⟩ := h w List.mem_cons_self
      refine ih ?_ fun x hx => h x (List.mem_cons_of_mem w hx)
      show w.apply c "new" = some (D.overlay w.data)
      rw [← hdoc, w.apply_self, hdoc, hc, DocumentWrite.result, hmerge]
      rfl

/-! ## The two pages -/

theorem pageKeys_disjoint :
    (∀ k ∈ profileKeys, k ∉ profile2Keys) ∧ (∀ k ∈ profile2Keys, k ∉ profileKeys) ∧
      ∀ k ∈ registrationKeys, k ∉ profileKeys ∧ k ∉ profile2Keys := by
  decide

section Pages

variable {A B C : List DocumentWrite} (hA : ∀ w ∈ A, Page1Write w)
  (hB : ∀ w ∈ B, Page2Write w) (hC : Shuffle A B C)

include hA hB

/-- Page 1 after page 2 is page 2 after page 1. -/
theorem overlay_pages_comm :
    ∀ a ∈ A, ∀ b ∈ B, ∀ D : Document,
      (D.overlay a.data).overlay b.data = (D.overlay b.data).overlay a.data := by
  intro a ha b hb D
  refine overlay_comm fun k hk => ?_
  rw [(hA a ha).keys_eq] at hk
  rw [(hB b hb).keys_eq]
  exact pageKeys_disjoint.1 k hk

include hC

/-- The document after any interleaving is the one page 1 makes of the one
page 2 makes. -/
theorem applyAll_shuffle {c : Collection} {D : Document} (hc : c "new" = some D) :
    DocumentWrite.applyAll c C "new" =
      some ((A.map (·.data)).foldl Doc.overlay ((B.map (·.data)).foldl Doc.overlay D)) := by
  have hfold := hC.foldl_eq (f := fun (D : Document) w => D.overlay w.data)
    (overlay_pages_comm hA hB) D
  rw [applyAll_of_merges hc (hC.forall_mem (fun w hw => (hA w hw).merges)
    fun w hw => (hB w hw).merges)]
  simp only [List.foldl_map]
  exact congrArg some hfold

end Pages

/-- The last overlay of a list of overlays with the same keys decides them. -/
theorem foldl_overlay_getLast {ws : List DocumentWrite} {w : DocumentWrite} {K : List String}
    {k : String} {D : Document} (hws : ∀ x ∈ ws, keys x.data = K) (hlast : ws.getLast? = some w)
    (hk : k ∈ K) : (ws.map (·.data)).foldl Doc.overlay D k = w.data.lookup k := by
  obtain ⟨init, rfl⟩ := List.getLast?_eq_some_iff.mp hlast
  rw [List.map_append, List.map_singleton]
  refine foldl_overlay_snoc_of_mem ?_
  rw [hws w (List.mem_append_right init List.mem_cons_self)]
  exact hk

/-- Overlays do not touch the fields they do not name. -/
theorem foldl_overlay_untouched {ws : List DocumentWrite} {K : List String} {k : String}
    {D : Document} (hws : ∀ x ∈ ws, keys x.data = K) (hk : k ∉ K) :
    (ws.map (·.data)).foldl Doc.overlay D k = D k := by
  refine foldl_overlay_of_not_mem fun w hw => ?_
  obtain ⟨x, hx, rfl⟩ := List.mem_map.mp hw
  rw [hws x hx]
  exact hk

theorem isSome_lookup {w : DocumentWrite} {K : List String} {k : String}
    (hw : keys w.data = K) (hk : k ∈ K) : (w.data.lookup k).isSome = true := by
  rw [Option.isSome_iff_ne_none]
  intro hnone
  rw [← hw] at hk
  exact lookup_eq_none_iff_not_mem.mp hnone hk

/-- The two profile pages may be written in any order. -/
theorem pages_in_any_order {c : Collection} {D : Document} {A B C : List DocumentWrite}
    (hc : c "new" = some D) (hD : ∀ k ∈ registrationKeys, (D k).isSome = true)
    (hA : ∀ w ∈ A, Page1Write w) (hB : ∀ w ∈ B, Page2Write w) (hC : Shuffle A B C) :
    ∃ D', DocumentWrite.applyAll c C "new" = some D' ∧
      (∀ C', Shuffle A B C' → DocumentWrite.applyAll c C' "new" = some D') ∧
      (∀ k ∈ registrationKeys, D' k = D k) ∧
      ∀ a b, A.getLast? = some a → B.getLast? = some b →
        (∀ k ∈ registrationKeys ++ profileKeys ++ profile2Keys, (D' k).isSome = true) ∧
        (∀ k ∈ profileKeys, D' k = a.data.lookup k) ∧
        ∀ k ∈ profile2Keys, D' k = b.data.lookup k := by
  have hkA : ∀ w ∈ A, keys w.data = profileKeys := fun w hw => (hA w hw).keys_eq
  have hkB : ∀ w ∈ B, keys w.data = profile2Keys := fun w hw => (hB w hw).keys_eq
  have hreg : ∀ k ∈ registrationKeys,
      (A.map (·.data)).foldl Doc.overlay ((B.map (·.data)).foldl Doc.overlay D) k = D k := by
    intro k hk
    rw [foldl_overlay_untouched hkA (pageKeys_disjoint.2.2 k hk).1,
      foldl_overlay_untouched hkB (pageKeys_disjoint.2.2 k hk).2]
  refine ⟨_, applyAll_shuffle hA hB hC hc, fun C' hC' => applyAll_shuffle hA hB hC' hc, hreg,
    fun a b ha hb => ?_⟩
  have hpage1 : ∀ k ∈ profileKeys, (A.map (·.data)).foldl Doc.overlay
      ((B.map (·.data)).foldl Doc.overlay D) k = a.data.lookup k :=
    fun k hk => foldl_overlay_getLast hkA ha hk
  have hpage2 : ∀ k ∈ profile2Keys, (A.map (·.data)).foldl Doc.overlay
      ((B.map (·.data)).foldl Doc.overlay D) k = b.data.lookup k := by
    intro k hk
    rw [foldl_overlay_untouched hkA (pageKeys_disjoint.2.1 k hk)]
    exact foldl_overlay_getLast hkB hb hk
  refine ⟨fun k hk => ?_, hpage1, hpage2⟩
  rcases List.mem_append.mp hk with hk | hk
  · rcases List.mem_append.mp hk with hk | hk
    · rw [hreg k hk]
      exact hD k hk
    · rw [hpage1 k hk]
      exact isSome_lookup (hkA a (List.mem_of_getLast? ha)) hk
  · rw [hpage2 k hk]
    exact isSome_lookup (hkB b (List.mem_of_getLast? hb)) hk

/-- Two submissions of page 1 with one of page 2 in between, on a document
registration has just written. -/
theorem pages_in_any_order_twice :
    ∃ D', DocumentWrite.applyAll
        ((RegisterViewController.registrationWrite "Ada" "Lovelace" "u1").apply fun _ => none)
        [MyProfileViewController.profileWrite
          (MyProfileViewController.userDictData "poet" "27" "165" "f" "UK" "UK") "https://a",
         MyProfile2ViewController.profile2Write "London" "full" "none" "UK" "30-40",
         MyProfileViewController.profileWrite
          (MyProfileViewController.userDictData "analyst" "28" "165" "f" "UK" "UK") "https://b"]
        "new" = some D' ∧
      ∀ k ∈ registrationKeys ++ profileKeys ++ profile2Keys, (D' k).isSome = true := by
  obtain ⟨D', hD', -, -, hall⟩ := pages_in_any_order
    (c := (RegisterViewController.registrationWrite "Ada" "Lovelace" "u1").apply fun _ => none)
    (A := [MyProfileViewController.profileWrite
      (MyProfileViewController.userDictData "poet" "27" "165" "f" "UK" "UK") "https://a",
      MyProfileViewController.profileWrite
      (MyProfileViewController.userDictData "analyst" "28" "165" "f" "UK" "UK") "https://b"])
    (B := [MyProfile2ViewController.profile2Write "London" "full" "none" "UK" "30-40"])
    (DocumentWrite.apply_self _ _) (by decide)
    (by simp only [List.mem_cons, List.not_mem_nil, or_false]
        rintro w (rfl | rfl) <;> exact .intro ..)
    (by simp only [List.mem_cons, List.not_mem_nil, or_false]
        rintro w rfl
        exact .intro ..)
    (.left (.right (.left .nil)))
  exact ⟨D', hD', (hall _ _ rfl rfl).1⟩

end Pompeius
