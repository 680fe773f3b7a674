import HeaderMiner.Url.Address
import HeaderMiner.Url.Domain
/-!
# URLs

A URL without a base: its parts as the web standard cuts them, and its normal form.  The schemes that
the web knows always have a host, take a backslash for a slash, and leave out their own port.
-/

namespace HeaderMiner

/-- why a text is no URL -/
inductive Url.Fault where
  | emptyHost
  | badDomain
  | badPort
  | badIpv4
  | badIpv6
  | badCharacter
  | noScheme
deriving DecidableEq, Repr

def Url.Fault.message : Url.Fault → String
  | emptyHost => "empty host"
  | badDomain => "invalid international domain name"
  | badPort => "invalid port number"
  | badIpv4 => "invalid IPv4 address"
  | badIpv6 => "invalid IPv6 address"
  | badCharacter => "invalid domain character"
  | noScheme => "relative URL without a base"

/-- the part of a URL behind its host -/
inductive Url.Path where
  /-- a text that is no list of segments -/
  | opaqueText (text : String)
  | segments (l : List String)
deriving DecidableEq, Repr

structure Url where
  scheme : String
  user : String := ""
  password : String := ""
  host : Option String := none
  /-- a port that is not the scheme's own -/
  port : Option Nat := none
  path : Url.Path
  query : Option String := none
  fragment : Option String := none
deriving DecidableEq, Repr

namespace Url

/-! ## schemes -/

inductive SchemeKind where
  | file
  /-- a scheme that the web knows -/
  | web
  | other
deriving DecidableEq

def SchemeKind.of (scheme : String) : SchemeKind :=
  if scheme = "file" then .file
  else if ["http", "https", "ws", "wss", "ftp"].contains scheme then .web
  else .other

def SchemeKind.isSpecial (k : SchemeKind) : Bool := k != .other

/-- the port that a scheme uses if none is given -/
def defaultPort? (scheme : String) : Option Nat :=
  if scheme = "http" ∨ scheme = "ws" then some 80
  else if scheme = "https" ∨ scheme = "wss" then some 443
  else if scheme = "ftp" then some 21
  else none

def takeScheme (cs : List Char) : Option (String × List Char) :=
  let name := cs.takeWhile fun c => c.isAlphanum || c = '+' || c = '-' || c = '.'
  match cs.drop name.length with
  | ':' :: r =>
    if name.head?.any Char.isAlpha then some (String.ofList (name.map Char.toLower), r) else none
  | _ => none

/-! ## hosts and ports -/

/-- whether a character ends the part of a URL in front of its path -/
def endsAuthority (k : SchemeKind) (c : Char) : Bool :=
  c = '/' || c = '?' || c = '#' || (k.isSpecial && c = '\\')

/-- the host of a text between brackets -/
def bracketed (cs : List Char) : Except Fault String :=
  match cs.reverse with
  | ']' :: r =>
    match ipv6? r.reverse with
    | some ps => .ok ("[" ++ ipv6Text ps ++ "]")
    | none => .error .badIpv6
  | _ => .error .badIpv6

/-- the host of a scheme that the web knows: an address, or a domain in ASCII -/
def webHost (cs : List Char) : Except Fault String :=
  match cs with
  | '[' :: r => bracketed r
  | cs =>
    match Domain.toAscii? (percentBytes cs) with
    | none => .error .badDomain
    | some domain =>
      if domain.isEmpty then .error .emptyHost
      else if endsInNumber domain then
        match ipv4? domain with
        | some n => .ok (ipv4Text n)
        | none => .error .badIpv4
      else .ok (String.ofList domain)

/-- the host of any other scheme, where only some characters are refused -/
def otherHost (cs : List Char) : Except Fault String :=
  match cs with
  | '[' :: r => bracketed r
  | cs =>
    if cs.any fun c => "\x00\t\n\r #/:<>?@[\\]^|".contains c then .error .badCharacter
    else .ok (Part.opaquePath.encode cs)

/-- takes a host: all up to a colon outside brackets, or the end of the authority -/
def takeHost (k : SchemeKind) (inside : Bool) : List Char → List Char × List Char
  | [] => ([], [])
  | c :: r =>
    if (c = ':' ∧ !inside) ∨ endsAuthority k c then ([], c :: r)
    else
      let (h, rest) := takeHost k (if c = '[' then true else if c = ']' then false else inside) r
      (c :: h, rest)

def takePort (k : SchemeKind) (cs : List Char) : Except Fault (Option Nat × List Char) :=
  let ds := cs.takeWhile Char.isDigit
  let r := cs.drop ds.length
  let n := ds.foldl (fun n d => n * 10 + (d.toNat - 48)) 0
  if 65535 < n then .error .badPort
  else if r.head?.all fun c => endsAuthority k c || c = '\\' then
    .ok (if ds.isEmpty then none else some n, r)
  else .error .badPort

/-! ## user and password -/

/-- cuts a text at its last `@`, if it has one -/
def cutUser (cs : List Char) : Option (List Char × List Char) :=
  let backward := cs.reverse
  match backward.dropWhile (· ≠ '@') with
  | [] => none
  | _ :: front => some (front.reverse, (backward.takeWhile (· ≠ '@')).reverse)

/-- the user and the password of the text in front of an `@` -/
def userOf (cs : List Char) : String × String :=
  let user := cs.takeWhile (· ≠ ':')
  (Part.userinfo.encode user, Part.userinfo.encode ((cs.drop user.length).drop 1))

/-! ## paths -/

def isDot (s : String) : Bool := [".", "%2e", "%2E"].contains s

def isDoubleDot (s : String) : Bool :=
  ["..", "%2e%2e", "%2e%2E", "%2E%2e", "%2E%2E", "%2e.", "%2E.", ".%2e", ".%2E"].contains s

/-- a letter and a colon, or a bar in place of the colon -/
def driveLetter? (s : String) : Option String :=
  match s.toList with
  | [c, d] => if c.isAlpha ∧ (d = ':' ∨ d = '|') then some (String.ofList [c, ':']) else none
  | _ => none

/-- the segments without the last; a drive letter at the root of a file stays -/
def shorten (k : SchemeKind) (segments : List String) : List String :=
  match segments with
  | [s] =>
    if k = .file ∧ driveLetter? s = some s then [s] else []
  | l => l.dropLast

/-- adds a segment, where one or two dots move through the path -/
def addSegment (k : SchemeKind) (segments : List String) (last : Bool) (cs : List Char) :
    List String :=
  let s := Part.path.encode cs
  if isDoubleDot s then shorten k segments ++ (if last then [""] else [])
  else if isDot s then segments ++ (if last then [""] else [])
  else
    match k, segments, driveLetter? s with
    | .file, [], some drive => [drive]
    | _, _, _ => segments ++ [s]

def addSegments (k : SchemeKind) (segments : List String) : List (List Char) → List String
  | [] => segments
  | [p] => addSegment k segments true p
  | p :: ps => addSegments k (addSegment k segments false p) ps

/-- the path of a text that ends in front of a query -/
def pathOf (k : SchemeKind) (cs : List Char) : Path :=
  let cs := if k.isSpecial then cs.map fun c => if c = '\\' then '/' else c else cs
  match cs with
  | [] => .segments (if k.isSpecial then [""] else [])
  | '/' :: r => .segments (addSegments k [] (Text.splitAt '/' r))
  | cs => .segments (addSegments k [] (Text.splitAt '/' cs))

/-- adds the query and the fragment of the text behind the path -/
def withTail (u : Url) (k : SchemeKind) (cs : List Char) : Url :=
  let front := cs.takeWhile (· ≠ '#')
  let fragment := match cs.drop front.length with
    | '#' :: r => some (Part.fragment.encode r)
    | _ => none
  let query := match front with
    | '?' :: r => some ((if k.isSpecial then Part.webQuery else .query).encode r)
    | _ => none
  { u with query, fragment }

/-- whether a character stands in front of a query or fragment -/
def inPath (c : Char) : Bool := c ≠ '?' && c ≠ '#'

def withPath (u : Url) (k : SchemeKind) (cs : List Char) : Url :=
  let path := cs.takeWhile inPath
  { u with path := pathOf k path }.withTail k (cs.drop path.length)

/-! ## parsing -/

/-- reads all behind the two slashes of an authority -/
def authority (scheme : String) (k : SchemeKind) (cs : List Char) : Except Fault Url := do
  let front := cs.takeWhile fun c => !endsAuthority k c
  let behind := cs.drop front.length
  let ((user, password), rest) ← match cutUser front with
    | some ([], []) => if behind.isEmpty then .ok (("", ""), []) else .error .emptyHost
    | some (u, h) => .ok (userOf u, h)
    | none => .ok (("", ""), front)
  let (h, rest) := takeHost k false rest
  let named := !(user.isEmpty && password.isEmpty)
  if h.isEmpty && (k.isSpecial || named || rest.head? == some ':') then throw .emptyHost
  let host ← if k.isSpecial then webHost h else otherHost h
  let (port, rest) ← match rest with
    | ':' :: r => takePort k (r ++ behind)
    | r => .ok (none, r ++ behind)
  let port := if port = defaultPort? scheme then none else port
  return withPath ⟨scheme, user, password, some host, port, .segments [], none, none⟩ k rest

/-- reads all behind the colon of `file` -/
def fileUrl (cs : List Char) : Except Fault Url := do
  let isSlash (c : Char) : Bool := c = '/' || c = '\\'
  let u : Url := ⟨"file", "", "", some "", none, .segments [], none, none⟩
  match cs with
  | a :: b :: r =>
    if isSlash a && isSlash b then
      let h := r.takeWhile fun c => !endsAuthority .file c
      if (driveLetter? (String.ofList h)).isSome then return u.withPath .file ('/' :: r)
      let host ← if h.isEmpty then pure "" else webHost h
      let host := if host = "localhost" then "" else host
      return { u with host := some host }.withPath .file (r.drop h.length)
    else return u.withPath .file cs
  | cs => return u.withPath .file cs

/-- drops control characters and spaces -/
def dropEdge (cs : List Char) : List Char := cs.dropWhile fun c => c.toNat ≤ 0x20

/-- the URL of a text; blanks around it and line breaks inside it do not count -/
def parse (s : String) : Except Fault Url :=
  let cs := (dropEdge (dropEdge s.toList).reverse).reverse
  let cs := cs.filter fun c => c ≠ '\t' && c ≠ '\n' && c ≠ '\r'
  match takeScheme cs with
  | none => .error .noScheme
  | some (scheme, r) =>
    let k := SchemeKind.of scheme
    let u : Url := ⟨scheme, "", "", none, none, .segments [], none, none⟩
    match k with
    | .file => fileUrl r
    | .web => authority scheme k (r.dropWhile fun c => c = '/' || c = '\\')
    | .other =>
      match r with
      | '/' :: '/' :: r => authority scheme k r
      | '/' :: _ => .ok (u.withPath k r)
      | _ =>
        let text := r.takeWhile inPath
        .ok ({ u with path := .opaqueText (Part.opaquePath.encode text) }.withTail k
          (r.drop text.length))

/-! ## writing -/

def Path.text : Path → String
  | opaqueText s => s
  | segments l => String.join (l.map ("/" ++ ·))

/-- the user and the password in front of a host -/
def userText (u : Url) : String :=
  if u.user.isEmpty && u.password.isEmpty then ""
  else u.user ++ (if u.password.isEmpty then "" else ":" ++ u.password) ++ "@"

/-- what stands between the scheme and the path; a path that starts with two slashes is told from a
host by a point -/
def authorityText (u : Url) : String :=
  match u.host with
  | some h =>
    "//" ++ u.userText ++ h ++ (match u.port with
      | some p => ":" ++ toString p
      | none => "")
  | none =>
    match u.path with
    | .segments ("" :: _ :: _) => "/."
    | _ => ""

/-- the normal form -/
def text (u : Url) : String :=
  u.scheme ++ ":" ++ u.authorityText ++ u.path.text
    ++ (match u.query with
      | some q => "?" ++ q
      | none => "")
    ++ (match u.fragment with
      | some f => "#" ++ f
      | none => "")

end Url

end HeaderMiner
