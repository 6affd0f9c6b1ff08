/-!
Addresses of repositories.
-/

namespace PluginSurface.Remote

/-- Characters that count as blank, which are those of the Unicode property
White_Space. -/
def isBlank (char : Char) : Bool :=
  let code := char.toNat
  (9 ≤ code && code ≤ 13) || code == 0x20 || code == 0x85 || code == 0xa0 ||
    code == 0x1680 || (0x2000 ≤ code && code ≤ 0x200a) || code == 0x2028 ||
    code == 0x2029 || code == 0x202f || code == 0x205f || code == 0x3000

def trim (chars : List Char) : List Char :=
  ((chars.dropWhile isBlank).reverse.dropWhile isBlank).reverse

/-- The web address of a host and a path that are divided by the first
colon. -/
def webAddress (address : List Char) : List Char :=
  "https://".toList ++
    match address.dropWhile (· ≠ ':') with
    | _ :: path => address.takeWhile (· ≠ ':') ++ '/' :: path
    | [] => address

/-- Drops an ending `.git`. -/
def withoutEnding (address : List Char) : List Char :=
  if ".git".toList.isSuffixOf address then address.take (address.length - 4)
  else address

/-- The usual form of a remote address: `git@host:path` becomes a web address,
and an ending `.git` is dropped. -/
def normalize (address : String) : String :=
  let trimmed := trim address.toList
  String.ofList <| withoutEnding <|
    if "git@".toList.isPrefixOf trimmed then webAddress (trimmed.drop 4)
    else trimmed

end PluginSurface.Remote
