import Pompeius.Lib.Percent
import Pompeius.Lib.Segments
import Pompeius.Model.UIKit

/-!
# Where an object of Storage is

The path of an object (`FIRStoragePath`), the reference that carries it, and the
two spellings a path has outside the SDK: the `gs://` URI that the program
starts from and the download URL that ends up in a document. An Objective-C
exception ends the process when nobody catches it, and the program catches
none; here it is a value.

The pieces of Foundation follow their documentation. A scanner passes over
whitespace and newlines before whatever it scans and does not distinguish case,
which matters for the two letters of `gs://`. A URL is read as RFC 3986 cuts
it, with brackets allowed nowhere: they stand only in a host of digits, which
is never the host asked for.
-/

namespace Pompeius

open Lib

/-! ## Foundation -/

structure NSException where
  name : String
  reason : String
  deriving DecidableEq, Repr

/-- `componentsSeparatedByString:`. -/
def componentsSeparated (s : String) (separator : Char) : List String :=
  (s.toList.splitOn separator).map String.ofList

/-- The components that are not empty. -/
def pathNames (s : String) : List String :=
  (componentsSeparated s '/').filter (· ≠ "")

/-- What is appended here is never empty. The documentation speaks of the separator
between the two, and of nothing else that happens to them: a separator at the end
of `path` stays. -/
def stringByAppendingPathComponent (s path : String) : String :=
  if s = "" then path
  else if s.toList.getLast? = some '/' then s ++ path
  else s ++ "/" ++ path

def stringByDeletingLastPathComponent (s : String) : String :=
  let front := "/".intercalate (pathNames s).dropLast
  if s.toList.head? = some '/' then "/" ++ front else front

/-- An `NSScanner` is what it has in front of it. -/
abbrev NSScanner := List Char

/-- The long s is the one letter outside ASCII that a letter of `gs://` is the
lower case of. -/
def foldCase (c : Char) : Char := if c = 'ſ' then 's' else c.toLower

namespace NSScanner

def scanString (scanner : NSScanner) (string : List Char) : Bool × NSScanner :=
  let ahead := scanner.dropWhile whitespacesAndNewlines
  if (string.map foldCase).isPrefixOf (ahead.map foldCase) then
    (true, ahead.drop string.length)
  else (false, scanner)

/-- `scanUpToString:intoString:` of a string of one character; it scans something
or fails. -/
def scanUpTo (scanner : NSScanner) (stop : Char) : Option String × NSScanner :=
  let ahead := scanner.dropWhile whitespacesAndNewlines
  match ahead.takeWhile (· ≠ stop) with
  | [] => (none, scanner)
  | found => (some (String.ofList found), ahead.dropWhile (· ≠ stop))

end NSScanner

structure NSURL where
  host : String
  percentEncodedPath : List Char
  deriving DecidableEq, Repr

/-- What may stand in a URL apart from the percent sign, the number sign and
brackets. -/
def isURLCharacter (c : Char) : Bool :=
  c.isAlphanum || "-._~:/?@!$&'()*+,;=".toList.contains c

def isURLText : List Char → Bool
  | [] => true
  | '%' :: hi :: lo :: l => (hexValue? hi).isSome && (hexValue? lo).isSome && isURLText l
  | c :: l => isURLCharacter c && isURLText l

namespace NSURL

/-- `URLWithString:`, of a string that begins with a scheme and `://`. -/
def URLWithString (s : String) : Option NSURL :=
  match s.toList.splitOn '#' with
  | text :: fragment =>
      if fragment.length ≤ 1 ∧ isURLText text ∧ fragment.all isURLText then
        let hierarchy := (text.dropWhile (· ≠ ':')).drop 3
        let authority := hierarchy.takeWhile fun c => c ≠ '/' ∧ c ≠ '?'
        let address := (authority.splitOn '@').getLastD []
        some {
          host := String.ofList (address.takeWhile (· ≠ ':'))
          percentEncodedPath := (hierarchy.drop authority.length).takeWhile (· ≠ '?') }
      else none
  | [] => none

/-- A slash at either end is a component of its own. `nil` when what the path
encodes is not UTF-8. -/
def pathComponents (url : NSURL) : Option (List String) :=
  (unescape url.percentEncodedPath).map fun path =>
    (if path.toList.head? = some '/' then ["/"] else []) ++ pathNames path ++
      (if 1 < path.length ∧ path.toList.getLast? = some '/' then ["/"] else [])

end NSURL

/-! ## Names -/

theorem pathNames_eq (s : String) : pathNames s = (segments '/' s.toList).map String.ofList := by
  unfold pathNames componentsSeparated segments
  rw [List.filter_map]
  refine congrArg (List.map _) (List.filter_congr fun l _ => decide_eq_decide.mpr (not_congr ?_))
  exact ⟨fun h => String.ofList_injective h, fun h => congrArg String.ofList h⟩

theorem map_toList_pathNames (s : String) :
    (pathNames s).map String.toList = segments '/' s.toList := by
  rw [pathNames_eq, List.map_map]
  exact List.map_id'' (fun _ => String.toList_ofList) _

/-! ## Paths -/

/-- `standardizedPathForString:`. -/
def standardizedPathForString (string : String) : String :=
  let components := componentsSeparated string '/'
  "/".intercalate (components.filter (· ≠ ""))

theorem toList_standardizedPathForString (s : String) :
    (standardizedPathForString s).toList = normalize '/' s.toList := by
  show ("/".intercalate (pathNames s)).toList = _
  rw [String.toList_intercalate, map_toList_pathNames]
  rfl

theorem standardizedPathForString_idem (s : String) :
    standardizedPathForString (standardizedPathForString s) = standardizedPathForString s := by
  refine String.toList_inj.mp ?_
  rw [toList_standardizedPathForString, toList_standardizedPathForString, normalize_normalize]

theorem map_standardizedPathForString (object : Option String) :
    (object.map standardizedPathForString).map standardizedPathForString =
      object.map standardizedPathForString := by
  cases object with
  | none => rfl
  | some object => exact congrArg some (standardizedPathForString_idem object)

/-- `object` is `nil` in the path of a whole bucket. -/
@[ext] structure FIRStoragePath where
  bucket : String
  object : Option String
  standardized : object.map standardizedPathForString = object
  deriving DecidableEq

namespace FIRStoragePath

def initWithBucket (bucket : String) (object : Option String) : FIRStoragePath where
  bucket := bucket
  object := object.map standardizedPathForString
  standardized := map_standardizedPathForString object

/-- `isEqualToFIRStoragePath:`. -/
def isEqual (self path : FIRStoragePath) : Bool :=
  let isBucketEqual := self.bucket == path.bucket
  let isObjectEqual :=
    match self.object, path.object with
    | none, none => true
    | some object, some object' => object == object'
    | _, _ => false
  isBucketEqual && isObjectEqual

def stringValue (self : FIRStoragePath) : String :=
  "gs://" ++ self.bucket ++ "/" ++ self.object.getD ""

def child (self : FIRStoragePath) (path : String) : FIRStoragePath :=
  if path.length = 0 then self
  else
    let childObject :=
      match self.object with
      | none => path
      | some object => stringByAppendingPathComponent object path
    initWithBucket self.bucket (some childObject)

def parent (self : FIRStoragePath) : Option FIRStoragePath :=
  match self.object with
  | none => none
  | some object =>
      if object.length = 0 then none
      else
        let parentObject := stringByDeletingLastPathComponent object
        some (initWithBucket self.bucket (some parentObject))

def root (self : FIRStoragePath) : FIRStoragePath := initWithBucket self.bucket none

def pathFromGSURI (aURIString : String) : Except NSException FIRStoragePath :=
  let scanner : NSScanner := aURIString.toList
  let (isGSURI, scanner) := scanner.scanString "gs://".toList
  let (bucketName, scanner) := scanner.scanUpTo '/'
  let (_, scanner) := scanner.scanString ['/']
  let (objectName, _) := scanner.scanUpTo '\n'
  match isGSURI, bucketName with
  | true, some bucketName => .ok (initWithBucket bucketName objectName)
  | _, _ =>
      .error ⟨"NSInternalInconsistencyException",
        "URI must be in the form of gs://<bucket>/<path/to/object>"⟩

def kFIRStorageHost : String := "firebasestorage.googleapis.com"

def pathFromHTTPURL (aURLString : String) : Except NSException FIRStoragePath :=
  let httpsURL := NSURL.URLWithString aURLString
  let pathComponents := (httpsURL.bind NSURL.pathComponents).getD []
  let ours := httpsURL.map NSURL.host = some kFIRStorageHost
  let bucketName := if ours ∧ 3 < pathComponents.length then pathComponents[3]? else none
  let objectName :=
    if ours ∧ 5 < pathComponents.length then some ("/".intercalate (pathComponents.drop 5))
    else none
  if (bucketName.getD "").length = 0 then
    .error ⟨"NSInternalInconsistencyException",
      "URL must be in the form of " ++
      "http[s]://firebasestorage.googleapis.com/v0/b/<bucket>/o/<path/to/" ++
      "object>[?token=signed_url_params]"⟩
  else
    .ok (initWithBucket (bucketName.getD "")
      (if (objectName.getD "").length = 0 then none else objectName))

def pathFromString (string : String) : Except NSException FIRStoragePath :=
  if "gs://".toList.isPrefixOf string.toList then pathFromGSURI string
  else if "http://".toList.isPrefixOf string.toList ∨
      "https://".toList.isPrefixOf string.toList then
    pathFromHTTPURL string
  else
    .error ⟨"NSInternalInconsistencyException",
      "URL scheme must be one of gs://, http://, or https:// "⟩

end FIRStoragePath

/-! ## References -/

/-- One per app and bucket. -/
structure FIRStorage where
  storageBucket : String
  deriving DecidableEq, Repr

structure FIRStorageReference where
  storage : FIRStorage
  path : FIRStoragePath
  deriving DecidableEq

namespace FIRStorageReference

def child (self : FIRStorageReference) (path : String) : FIRStorageReference :=
  { self with path := self.path.child path }

def parent (self : FIRStorageReference) : Option FIRStorageReference :=
  self.path.parent.map fun parentPath => { self with path := parentPath }

def root (self : FIRStorageReference) : FIRStorageReference :=
  { self with path := self.path.root }

end FIRStorageReference

namespace FIRStorage

/-- `storageForApp:URL:`. -/
def storageWithURL (url : String) : Except NSException FIRStorage :=
  if url = "" then .ok ⟨""⟩
  else
    match FIRStoragePath.pathFromGSURI url with
    | .error _ =>
        .error ⟨"NSInternalInconsistencyException", "URI must be in the form of gs://<bucket>/"⟩
    | .ok path =>
        if path.object ≠ none ∧ path.object ≠ some "" then
          .error ⟨"NSInternalInconsistencyException",
            "Storage bucket cannot be initialized with a path"⟩
        else .ok ⟨path.bucket⟩

/-- `storageForApp:` of an app with this `storageBucket` among its options. -/
def storageForApp (storageBucket : Option String) : Except NSException FIRStorage :=
  match storageBucket with
  | some storageBucket =>
      storageWithURL (if storageBucket = "" then "" else "gs://" ++ storageBucket)
  | none =>
      .error ⟨"NSInvalidArgumentException",
        "No default Storage bucket found. Did you configure Firebase Storage properly?"⟩

def reference (self : FIRStorage) : FIRStorageReference :=
  ⟨self, FIRStoragePath.initWithBucket self.storageBucket none⟩

def referenceForURL (self : FIRStorage) (string : String) :
    Except NSException FIRStorageReference :=
  match FIRStoragePath.pathFromString string with
  | .error e => .error e
  | .ok path =>
      if self.storageBucket = "" then .ok ⟨self, path⟩
      else if path.bucket ≠ self.storageBucket then
        .error ⟨"NSInvalidArgumentException",
          "Provided bucket: " ++ path.bucket ++
          " does not match the Storage bucket of the current instance: " ++ self.storageBucket⟩
      else .ok ⟨self, path⟩

end FIRStorage

/-! ## Requests and download URLs -/

/-- `kGCSObjectAllowedCharacterSet`. -/
def gcsObjectAllowed (c : Char) : Bool :=
  ("ABCDEFGHIJKLMNOPQRSTUVWXYZabcdefghijklmnopqrstuvwxyz0123456789" ++
    "-._~!$'()*,=:@").toList.contains c

namespace FIRStorageUtils

def GCSEscapedString (string : String) : String :=
  String.ofList (escape gcsObjectAllowed string)

/-- The path every request about an object or a bucket is sent to. -/
def encodedURLForPath (path : FIRStoragePath) : String :=
  let bucketName := GCSEscapedString path.bucket
  let objectName := path.object.map GCSEscapedString
  let urlPath := stringByAppendingPathComponent "/" ("b/" ++ bucketName)
  let urlPath :=
    match objectName with
    | some objectName => urlPath ++ ("/" ++ ("o/" ++ objectName))
    | none => urlPath ++ "/o"
  "/" ++ ("v0" ++ urlPath)

end FIRStorageUtils

/-- What the backend says of an object, as far as a download URL needs it. -/
structure ObjectMetadata where
  bucket : String
  name : String
  downloadTokens : Option String
  deriving DecidableEq, Repr

/-- What `NSURLQueryItem` leaves as it is in a value. -/
def queryValueAllowed (c : Char) : Bool := isURLCharacter c && c != '&' && c != '='

/-- The URL of an object that was given these tokens, of which the first goes into
it. The bucket goes into the URL as it is. -/
def downloadURLOf (bucket name downloadTokens : String) : String :=
  let downloadTokenArray := componentsSeparated downloadTokens ','
  "https://" ++ FIRStoragePath.kFIRStorageHost ++
    ("/v0/b/" ++ bucket ++ "/o/" ++ FIRStorageUtils.GCSEscapedString name) ++
    ("?" ++ ("alt=media&token=" ++
      String.ofList (escape queryValueAllowed (downloadTokenArray.headD ""))))

def downloadURLFromMetadataDictionary (dictionary : ObjectMetadata) : Option String :=
  match dictionary.downloadTokens with
  | some downloadTokens =>
      if 0 < downloadTokens.length then
        some (downloadURLOf dictionary.bucket dictionary.name downloadTokens)
      else none
  | none => none

/-! ## Small facts beside the definitions -/

theorem FIRStoragePath.isEqual_iff {p q : FIRStoragePath} : p.isEqual q = true ↔ p = q := by
  rw [FIRStoragePath.ext_iff]
  unfold isEqual
  rw [Bool.and_eq_true, beq_iff_eq]
  refine and_congr_right fun _ => ?_
  cases p.object <;> cases q.object <;> simp

theorem toList_downloadURLOf (bucket name downloadTokens : String) :
    (downloadURLOf bucket name downloadTokens).toList =
      "https://firebasestorage.googleapis.com/v0/b/".toList ++ (bucket.toList ++ ("/o/".toList ++
        (escape gcsObjectAllowed name ++ ("?alt=media&token=".toList ++
          escape queryValueAllowed ((componentsSeparated downloadTokens ',').headD ""))))) := by
  unfold downloadURLOf
  simp only [String.toList_append, String.toList_ofList, FIRStorageUtils.GCSEscapedString,
    List.append_assoc]
  rfl

end Pompeius
