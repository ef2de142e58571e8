import Pompeius.Lib.Run
import Pompeius.Model.Storage

/-!
# Paths are lists of names

What `FIRStoragePath` is for: a place in the tree of names of a bucket. The
text it keeps spells a list of names in the one way that has no superfluous
slash, so a path is its bucket and that list, and moving about in a bucket is
moving about among lists (`moves_of_run`).

The one thing a list does not say is where the source distinguishes a path
without an object from one whose object is the empty text. The parent of a name
at the top is of the second kind and the root of the first, so the two spell the
same URI and are not equal.
-/

namespace Pompeius

open Lib

/-! ## Names -/

theorem pathNames_standardizedPathForString (s : String) :
    pathNames (standardizedPathForString s) = pathNames s := by
  rw [pathNames_eq, toList_standardizedPathForString, segments_normalize, ← pathNames_eq]

/-- A name is what can stand between two slashes. -/
def IsName (name : String) : Prop := '/' ∉ name.toList ∧ name ≠ ""

theorem isName_of_mem {s name : String} (h : name ∈ pathNames s) : IsName name := by
  have hmem : name.toList ∈ segments '/' s.toList := by
    rw [← map_toList_pathNames]
    exact List.mem_map_of_mem h
  obtain ⟨hslash, hne⟩ := mem_segments hmem
  exact ⟨hslash, fun hname => hne (hname ▸ rfl)⟩

theorem IsName.pathNames {name : String} (h : IsName name) : pathNames name = [name] := by
  rw [pathNames_eq, segments_of_not_mem h.1 fun hnil => h.2 (String.toList_eq_nil_iff.mp hnil)]
  exact congrArg ([·]) String.ofList_toList

theorem pathNames_append_slash (s t : String) :
    pathNames (s ++ ("/" ++ t)) = pathNames s ++ pathNames t := by
  rw [pathNames_eq, pathNames_eq, pathNames_eq, String.toList_append, String.toList_append,
    ← List.map_append]
  exact congrArg _ (segments_append_cons _ _)

@[simp] theorem pathNames_empty : pathNames "" = [] := rfl

/-- What is joined is read piece by piece. -/
theorem pathNames_intercalate (pieces : List String) :
    pathNames ("/".intercalate pieces) = pieces.flatMap pathNames := by
  induction pieces with
  | nil => rfl
  | cons piece pieces ih =>
      rw [List.flatMap_cons, ← ih]
      cases pieces with
      | nil =>
          rw [String.intercalate_singleton, String.intercalate_nil, pathNames_empty,
            List.append_nil]
      | cons piece' pieces =>
          rw [String.intercalate_cons_cons, String.append_assoc, pathNames_append_slash]

theorem flatMap_pathNames {names : List String} (h : ∀ name ∈ names, IsName name) :
    names.flatMap pathNames = names := by
  rw [List.flatMap_congr fun name hname => (h name hname).pathNames]
  exact List.flatMap_singleton' names

theorem pathNames_appendingPathComponent (s path : String) :
    pathNames (stringByAppendingPathComponent s path) = pathNames s ++ pathNames path := by
  unfold stringByAppendingPathComponent
  split
  · rename_i hs
    rw [hs, pathNames_empty, List.nil_append]
  · split
    · rename_i hlast
      obtain ⟨front, hfront⟩ := List.getLast?_eq_some_iff.mp hlast
      have hs : s = String.ofList front ++ ("/" ++ "") := by
        refine String.toList_inj.mp ?_
        rw [hfront, String.toList_append, String.toList_ofList]
        rfl
      rw [hs, String.append_assoc, String.append_assoc, String.empty_append,
        pathNames_append_slash, pathNames_append_slash, pathNames_empty, List.append_nil]
    · rw [String.append_assoc, pathNames_append_slash]

theorem pathNames_deletingLastPathComponent (s : String) :
    pathNames (stringByDeletingLastPathComponent s) = (pathNames s).dropLast := by
  have hfront : pathNames ("/".intercalate (pathNames s).dropLast) = (pathNames s).dropLast := by
    rw [pathNames_intercalate]
    exact flatMap_pathNames fun _ hname => isName_of_mem ((List.dropLast_sublist _).mem hname)
  unfold stringByDeletingLastPathComponent
  split
  · have hslash := pathNames_append_slash "" ("/".intercalate (pathNames s).dropLast)
    rw [String.empty_append, pathNames_empty, List.nil_append] at hslash
    rw [hslash, hfront]
  · exact hfront

namespace FIRStoragePath

/-! ## What a path is -/

/-- The names of the object; `none` where there is no object. -/
def names (p : FIRStoragePath) : Option (List String) := p.object.map pathNames

theorem object_eq (p : FIRStoragePath) : p.object = p.names.map "/".intercalate := by
  rw [names, Option.map_map]
  exact p.standardized.symm

theorem ext_names {p q : FIRStoragePath} (hbucket : p.bucket = q.bucket)
    (hnames : p.names = q.names) : p = q := by
  refine FIRStoragePath.ext hbucket ?_
  rw [object_eq, object_eq, hnames]

@[simp] theorem names_initWithBucket (bucket : String) (object : Option String) :
    (initWithBucket bucket object).names = object.map pathNames := by
  unfold names initWithBucket
  rw [Option.map_map]
  exact congrArg (Option.map · object) (funext pathNames_standardizedPathForString)

/-- An object without a name is the empty text. -/
theorem object_eq_empty_iff {p : FIRStoragePath} : p.object = some "" ↔ p.names = some [] := by
  constructor
  · intro h
    rw [names, h]
    rfl
  · intro h
    rw [object_eq, h]
    rfl

/-! ## Moving about -/

theorem names_child (p : FIRStoragePath) (path : String) :
    (p.child path).names =
      if path = "" then p.names else some (p.names.getD [] ++ pathNames path) := by
  unfold child
  by_cases hpath : path = ""
  · rw [if_pos hpath, if_pos (by rw [hpath]; rfl)]
  · rw [if_neg hpath, if_neg (fun h => hpath (String.length_eq_zero_iff.mp h)),
      names_initWithBucket, names]
    cases p.object with
    | none => rfl
    | some object => exact congrArg some (pathNames_appendingPathComponent object path)

theorem names_parent (p : FIRStoragePath) :
    p.parent.map names =
      p.names.bind fun names => if names = [] then none else some (some names.dropLast) := by
  unfold parent
  cases hobject : p.object with
  | none => rw [names, hobject]; rfl
  | some object =>
      have hnames : p.names = some (pathNames object) := by rw [names, hobject]; rfl
      rw [hnames, Option.bind_some]
      show Option.map names (if object.length = 0 then none else some (initWithBucket p.bucket
        (some (stringByDeletingLastPathComponent object)))) = _
      by_cases hempty : object = ""
      · rw [hempty]
        rfl
      · have hne : pathNames object ≠ [] := by
          intro h
          rw [h] at hnames
          rw [object_eq_empty_iff.mpr hnames] at hobject
          exact hempty (Option.some.inj hobject).symm
        rw [if_neg (fun h => hempty (String.length_eq_zero_iff.mp h)), if_neg hne,
          Option.map_some, names_initWithBucket, Option.map_some,
          pathNames_deletingLastPathComponent]

@[simp] theorem bucket_child (p : FIRStoragePath) (path : String) :
    (p.child path).bucket = p.bucket := by
  unfold child
  split <;> rfl

theorem bucket_parent {p q : FIRStoragePath} (h : p.parent = some q) : q.bucket = p.bucket := by
  unfold parent at h
  split at h
  · cases h
  · split at h
    · cases h
    · cases h
      rfl

end FIRStoragePath

/-- What a program can do with a reference to get another one. -/
inductive StorageMove where
  | child (path : String)
  | parent
  | root
  deriving DecidableEq, Repr

def FIRStorageReference.move (self : FIRStorageReference) :
    StorageMove → Option FIRStorageReference
  | .child path => some (self.child path)
  | .parent => self.parent
  | .root => some self.root

/-- A place in the tree of names: going down, going up, which cannot be done at
the top, and going to the top. -/
def moveNames (names : Option (List String)) : StorageMove → Option (Option (List String))
  | .child path => some (if path = "" then names else some (names.getD [] ++ pathNames path))
  | .parent => names.bind fun names => if names = [] then none else some (some names.dropLast)
  | .root => some none

namespace FIRStorageReference

/-- A reference apart from the spelling of its path. -/
def place (self : FIRStorageReference) : FIRStorage × String × Option (List String) :=
  (self.storage, self.path.bucket, self.path.names)

theorem place_inj {r r' : FIRStorageReference} (h : r.place = r'.place) : r = r' := by
  obtain ⟨storage, path⟩ := r
  obtain ⟨storage', path'⟩ := r'
  simp only [place, Prod.mk.injEq] at h
  obtain ⟨rfl, hbucket, hnames⟩ := h
  rw [FIRStoragePath.ext_names hbucket hnames]

/-- A move changes the names and nothing else. -/
def movePlace (x : FIRStorage × String × Option (List String)) (m : StorageMove) :
    Option (FIRStorage × String × Option (List String)) :=
  (moveNames x.2.2 m).map fun names => (x.1, x.2.1, names)

theorem move_place (r : FIRStorageReference) (m : StorageMove) :
    (r.move m).map place = movePlace r.place m := by
  cases m with
  | child path =>
      show some (r.storage, (r.path.child path).bucket, (r.path.child path).names) = _
      rw [FIRStoragePath.bucket_child, FIRStoragePath.names_child]
      rfl
  | parent =>
      show (r.path.parent.map _).map place = (r.path.names.bind _).map _
      rw [← FIRStoragePath.names_parent, Option.map_map, Option.map_map]
      cases hparent : r.path.parent with
      | none => rfl
      | some parentPath =>
          show some (r.storage, parentPath.bucket, _) = _
          rw [FIRStoragePath.bucket_parent hparent]
          rfl
  | root => rfl

theorem map_place_run (r : FIRStorageReference) (ms : List StorageMove) :
    (run move r ms).map place =
      (run moveNames r.path.names ms).map fun names => (r.storage, r.path.bucket, names) := by
  have hnames : ∀ names m, (moveNames names m).map (fun names => (r.storage, r.path.bucket, names)) =
      movePlace (r.storage, r.path.bucket, names) m := fun _ _ => rfl
  rw [run_map move_place, run_map hnames]
  rfl

/-- Where a program gets from a reference, and whether it gets there at all, the
lists say, and two ways lead to the same reference exactly when they lead to the
same list. -/
theorem moves_of_run (r : FIRStorageReference) (ms : List StorageMove) :
    (run move r ms).map place =
      ((run moveNames r.path.names ms).map fun names => (r.storage, r.path.bucket, names)) ∧
    ∀ ms', run move r ms = run move r ms' ↔
      run moveNames r.path.names ms = run moveNames r.path.names ms' := by
  refine ⟨map_place_run r ms, fun ms' => ?_⟩
  have hplace : Function.Injective place := fun _ _ h => place_inj h
  have hlist : Function.Injective fun names : Option (List String) =>
      (r.storage, r.path.bucket, names) := by
    intro names names' h
    exact congrArg (·.2.2) h
  rw [← (Option.map_injective hplace).eq_iff, map_place_run, map_place_run,
    (Option.map_injective hlist).eq_iff]

/-- Down and up again at the top is not where one was. -/
example : run moveNames none [.child "profiles", .parent] = some (some []) ∧
    run moveNames none [.child "profiles", .root] = some none := by
  decide

end FIRStorageReference

end Pompeius
