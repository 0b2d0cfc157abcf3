import Mathlib.Data.List.TakeWhile

/-!
# `urllib.parse.urlparse`, up to the path

On character lists: leading control characters are dropped, tabs and line ends anywhere; a scheme
ends at the first colon and has no other characters than a scheme may have; two slashes begin the
network location. What `urlparse` asks of the network location (brackets, addresses between them,
characters that normalise to a delimiter) is a parameter; it raises `ValueError` where that fails.
-/

namespace OdooSemantic
namespace UrlParse

def isSchemeChar (c : Char) : Bool := c.isAlphanum || c ∈ ['+', '-', '.']

/-- `url.lstrip(_WHATWG_C0_CONTROL_OR_SPACE)` without the unsafe characters. -/
def clean (url : List Char) : List Char :=
  (url.dropWhile fun c => c.toNat ≤ 0x20).filter fun c => c ∉ ['\t', '\r', '\n']

/-- The scheme, and what follows it. -/
def splitScheme (url : List Char) : List Char × List Char :=
  let scheme := url.takeWhile (· ≠ ':')
  match url.dropWhile (· ≠ ':') with
  | _ :: rest =>
      if scheme.head?.any Char.isAlpha && scheme.all isSchemeChar then
        (scheme.map Char.toLower, rest)
      else ([], url)
  | [] => ([], url)

/-- `_splitnetloc(url, 2)`, where two slashes are in front. -/
def splitNetloc : List Char → List Char × List Char
  | '/' :: '/' :: rest =>
      (rest.takeWhile (· ∉ ['/', '?', '#']), rest.dropWhile (· ∉ ['/', '?', '#']))
  | url => ([], url)

def usesParams : List String :=
  ["", "ftp", "hdl", "prospero", "http", "imap", "https", "shttp", "rtsp", "rtsps", "rtspu", "sip",
    "sips", "mms", "sftp", "tel"]

/-- What follows the last `c`. -/
def afterLast (c : Char) (cs : List Char) : List Char := (cs.reverse.takeWhile (· ≠ c)).reverse

/-- `_splitparams(url)[0]`: the last segment ends at its semicolon. -/
def withoutParams (path : List Char) : List Char :=
  path.take (path.length - (afterLast '/' path).length) ++ (afterLast '/' path).takeWhile (· ≠ ';')

/-- `urlparse(url)`: the scheme and the path. -/
def urlparse (netlocOk : List Char → Bool) (url : List Char) : Option (List Char × List Char) :=
  let (scheme, rest) := splitScheme (clean url)
  let (netloc, rest) := splitNetloc rest
  let path := (rest.takeWhile (· ≠ '#')).takeWhile (· ≠ '?')
  if netlocOk netloc then
    some (scheme, if String.ofList scheme ∈ usesParams then withoutParams path else path)
  else none

theorem notMem_afterLast (c : Char) (cs : List Char) : c ∉ afterLast c cs := by
  intro h
  simpa using List.mem_takeWhile_imp (List.mem_reverse.mp h)

theorem mem_of_mem_afterLast {c d : Char} {cs : List Char} (h : d ∈ afterLast c cs) : d ∈ cs :=
  List.mem_reverse.mp ((List.takeWhile_sublist _).subset (List.mem_reverse.mp h))

example : urlparse (fun _ => true) "https://host/a;b/c;d?e#f".toList =
    some ("https".toList, "/a;b/c".toList) := by decide

end UrlParse
end OdooSemantic
