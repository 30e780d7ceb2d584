import TechAtlas.Library.Text

set_option autoImplicit false

/- URLs as the url crate presents them, and the two types the program wraps
around it: canonical domains and crawl targets. -/
namespace TechAtlas

open Library

inductive Host
  | domain (name : Text)
  | ipv4 (address : Nat)
  | ipv6 (address : Nat)
  deriving DecidableEq, Repr

structure Url where
  scheme : Text
  username : Text
  password : Option Text
  host : Option Host
  port : Option Nat
  path : Text
  query : Option Text
  fragment : Option Text
  deriving DecidableEq, Repr

/-- `Url::parse`, `Url::join` and the display of the url crate. -/
structure UrlCrate where
  parse : Text → Option Url
  join : Url → Text → Option Url
  display : Url → Text

/-- The text given to `Url::parse` for an input that may lack a scheme. -/
def withScheme (input : Text) : Text :=
  if containsText "://".toList input then input else "https://".toList ++ input

def isHttpScheme (scheme : Text) : Bool := scheme == "http".toList || scheme == "https".toList

inductive CanonicalDomainError
  | empty
  | missingHost
  | invalidUrl
  | unsupportedScheme
  | credentialsNotAllowed
  | ipLiteralNotAllowed
  | invalidHost
  | localhostNotAllowed
  | tooLong
  deriving DecidableEq, Repr

/-- The host text a domain row is keyed by, with what `CanonicalDomain::parse`
checks of it. -/
structure CanonicalDomain where
  text : Text
  text_present : text ≠ []
  text_not_localhost : text ≠ "localhost".toList
  text_bounded : utf8Length text ≤ 253

/-- `scheme://` with nothing between it and the path, query or fragment. -/
def lacksAuthority (input : Text) : Bool :=
  match splitOnce "://".toList input with
  | some (_, rest) =>
      rest.head? == some '/' || rest.head? == some '?' || rest.head? == some '#'
  | none => false

/-- The part of `CanonicalDomain::parse` after the host is known. -/
def CanonicalDomain.ofHost (host : Text) : Except CanonicalDomainError CanonicalDomain :=
  if missing : stripLast '.' host = [] then .error .invalidHost
  else if localhost : stripLast '.' host = "localhost".toList then .error .localhostNotAllowed
  else if long : 253 < utf8Length (stripLast '.' host) then .error .tooLong
  else .ok {
    text := stripLast '.' host
    text_present := missing
    text_not_localhost := localhost
    text_bounded := Nat.le_of_not_lt long }

def CanonicalDomain.parse (crate : UrlCrate) (input : Text) :
    Except CanonicalDomainError CanonicalDomain :=
  let input := trim input
  if input = [] then .error .empty
  else if lacksAuthority input then .error .missingHost
  else
    match crate.parse (withScheme input) with
    | none => .error .invalidUrl
    | some url =>
        if !isHttpScheme url.scheme then .error .unsupportedScheme
        else if url.username ≠ [] ∨ url.password.isSome then .error .credentialsNotAllowed
        else
          match url.host with
          | none => .error .missingHost
          | some (.domain host) => CanonicalDomain.ofHost host
          | some _ => .error .ipLiteralNotAllowed

inductive CrawlUrlError
  | empty
  | invalid
  | unsupportedScheme
  | credentialsNotAllowed
  | fragmentNotAllowed
  | missingHost
  | ipLiteralNotAllowed
  | localhostNotAllowed
  deriving DecidableEq, Repr

def CrawlUrlError.message : CrawlUrlError → Text
  | .empty => "crawl URL is empty".toList
  | .invalid => "crawl URL is invalid".toList
  | .unsupportedScheme => "crawl URL must use HTTP or HTTPS".toList
  | .missingHost => "crawl URL is missing a host".toList
  | .credentialsNotAllowed => "crawl URL credentials are not allowed".toList
  | .fragmentNotAllowed => "crawl URL fragments are not allowed".toList
  | .ipLiteralNotAllowed => "crawl URL IP literals are not allowed".toList
  | .localhostNotAllowed => "crawl URL localhost is not allowed".toList

/-- What `CrawlUrl::from_url` checks, for the host it found. -/
structure CrawlUrl.Allowed (url : Url) (host : Text) : Prop where
  scheme : isHttpScheme url.scheme = true
  username : url.username = []
  password : url.password = none
  fragment : url.fragment = none
  domain : url.host = some (.domain host)
  not_localhost : asciiLowercase host ≠ "localhost".toList

structure CrawlUrl where
  url : Url
  host : Text
  allowed : CrawlUrl.Allowed url host

def CrawlUrl.fromUrl (url : Url) : Except CrawlUrlError CrawlUrl :=
  if scheme : isHttpScheme url.scheme = true then
    if credentials : url.username = [] ∧ url.password = none then
      if fragment : url.fragment = none then
        match found : url.host with
        | none => .error .missingHost
        | some (.domain host) =>
            if localhost : asciiLowercase host = "localhost".toList then
              .error .localhostNotAllowed
            else .ok {
              url := url
              host := host
              allowed := ⟨scheme, credentials.1, credentials.2, fragment, found, localhost⟩ }
        | some _ => .error .ipLiteralNotAllowed
      else .error .fragmentNotAllowed
    else .error .credentialsNotAllowed
  else .error .unsupportedScheme

def CrawlUrl.parse (crate : UrlCrate) (input : Text) : Except CrawlUrlError CrawlUrl :=
  let input := trim input
  if input = [] then .error .empty
  else
    match crate.parse (withScheme input) with
    | none => .error .invalid
    | some url => CrawlUrl.fromUrl url

def CrawlUrl.robotsUrl (target : CrawlUrl) : Except CrawlUrlError CrawlUrl :=
  CrawlUrl.fromUrl
    { target.url with path := "/robots.txt".toList, query := none, fragment := none }

def CrawlUrl.redirectTarget (crate : UrlCrate) (current : CrawlUrl) (location : Text) :
    Except CrawlUrlError CrawlUrl :=
  match crate.join current.url location with
  | none => .error .invalid
  | some url => CrawlUrl.fromUrl url

section Plain

/-- The IPv4 parser takes a label for a number: decimal, octal or hexadecimal. -/
def isIpv4Number (label : Text) : Bool :=
  !label.isEmpty &&
    (label.all Char.isDigit ||
      (("0x".toList.isPrefixOf (asciiLowercase label)) &&
        (label.drop 2).all fun c => c.isDigit || ('a' ≤ c.toLower && c.toLower ≤ 'f')))

/-- The last label, or the one before it when the last is empty. -/
def lastLabel (host : Text) : Text :=
  match (host.splitOn '.').reverse with
  | [] => []
  | [last] => last
  | last :: previous :: _ => if last.isEmpty then previous else last

/-- The WHATWG check that makes a host an IPv4 address. -/
def endsInNumber (host : Text) : Bool := isIpv4Number (lastLabel host)

/-- The host characters of ASCII domain names, after lowercasing. -/
def isHostChar (c : Char) : Bool := c.isLower || c.isDigit || c == '-' || c == '.' || c == '_'

def plainAuthorityEnd (c : Char) : Bool := c != '/' && c != '?' && c != '#'

/-- Path and query of what follows the authority. -/
def plainUrl (scheme host rest : Text) : Url where
  scheme := scheme
  username := []
  password := none
  host := some (.domain host)
  port := none
  path := if rest.head? = some '/' then rest.takeWhile (· != '?') else ['/']
  query := match rest.dropWhile (· != '?') with
    | [] => none
    | _ :: query => some query
  fragment := none

/-- A parser of plain `http` and `https` URLs, to run the development with: no
credentials, port, fragment or address. -/
def plainParse (input : Text) : Option Url :=
  match splitOnce "://".toList input with
  | none => none
  | some (scheme, rest) =>
      let host := asciiLowercase (rest.takeWhile plainAuthorityEnd)
      if isHttpScheme scheme && !host.isEmpty && host.all isHostChar && !endsInNumber host then
        some (plainUrl scheme host (rest.dropWhile plainAuthorityEnd))
      else none

def plainJoin (base : Url) (location : Text) : Option Url :=
  match base.host with
  | some (.domain host) =>
      if location.head? = some '/' then some (plainUrl base.scheme host location)
      else plainParse location
  | _ => plainParse location

def plainDisplay (url : Url) : Text :=
  let host := match url.host with
    | some (.domain host) => host
    | _ => []
  url.scheme ++ "://".toList ++ host ++ url.path ++ (url.query.map ('?' :: ·)).getD []

def plainUrlCrate : UrlCrate where
  parse := plainParse
  join := plainJoin
  display := plainDisplay

def exampleDomain : CanonicalDomain :=
  ⟨"example.com".toList, by decide, by decide, by decide⟩

example : CanonicalDomain.parse plainUrlCrate " Example.COM. ".toList = .ok exampleDomain := by
  rfl

end Plain

end TechAtlas
