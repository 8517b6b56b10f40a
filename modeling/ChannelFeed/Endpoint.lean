import ChannelFeed.Fault
import ChannelFeed.Text.Split

namespace ChannelFeed

structure SocketEndpoint where
  url : String
  deriving DecidableEq, Repr

namespace SocketEndpoint

def schemes : List String := ["ws://", "wss://"]

def afterScheme? (url : String) : Option (List Char) :=
  schemes.findSome? (fun scheme => afterStart scheme.toList url.toList)

def ofUrl (url : String) : Except TransportFault SocketEndpoint :=
  if (afterScheme? url).isSome then .ok ⟨url⟩
  else .error (.invalidAddress ("expected ws:// or wss:// URL, got " ++ url))

def isAuthorityChar (c : Char) : Bool :=
  ('a' ≤ c && c ≤ 'z') || ('A' ≤ c && c ≤ 'Z') || ('0' ≤ c && c ≤ '9') ||
    ("!$&'()*+,-.:;=@[]_~".toList.contains c)

/-- What has been seen of an authority. -/
structure Scan where
  colons : Nat := 0
  opened : Bool := false
  ended : Bool := false
  percent : Bool := false
  atSign : Bool := false

/-- Goes through an authority: brackets match and hold no others, a colon comes once outside of them
and of a user name, which ends at an at sign and is not all there is. -/
def scan (s : Scan) : List Char → Except String Scan
  | [] => .ok s
  | c :: rest =>
    let s := { s with atSign := false }
    if c = ':' then
      if 8 ≤ s.colons then .error "invalid authority"
      else scan { s with colons := s.colons + 1 } rest
    else if c = '[' then
      if s.percent || s.opened then .error "invalid authority"
      else scan { s with opened := true } rest
    else if c = ']' then
      if !s.opened || s.ended then .error "invalid authority"
      else scan { s with ended := true, colons := 0, percent := false } rest
    else if c = '@' then scan { s with colons := 0, percent := false, atSign := true } rest
    else if c = '%' then scan { s with percent := true } rest
    else if isAuthorityChar c then scan s rest
    else .error "invalid uri character"

/-- The characters of a path: all but blanks, controls and a few that have to be escaped. -/
def isPathChar (c : Char) : Bool := !(c.toNat ≤ 32 || "<>`".toList.contains c)

/-- The characters of a query: all but blanks, controls and a few that have to be escaped. -/
def isQueryChar (c : Char) : Bool := !(c.toNat ≤ 32 || "\"<>".toList.contains c)

/-- Whether what follows an authority is a path with a query; a fragment may be anything. -/
def isLocation (text : List Char) : Bool :=
  let text := text.takeWhile (fun c => c != '#')
  (text.takeWhile (fun c => c != '?')).all isPathChar &&
    (text.dropWhile (fun c => c != '?')).all isQueryChar

/-- No address is longer than this, in bytes. -/
def mostLength : Nat := 65534

/-- Why an address cannot be used to open a socket, if it cannot. -/
def defect? (e : SocketEndpoint) : Option String :=
  if mostLength < e.url.utf8ByteSize then some "uri too long"
  else match afterScheme? e.url with
  | none => none
  | some [] => some "empty string"
  | some rest =>
    let authority := rest.takeWhile (fun c => c != '/' && c != '?' && c != '#')
    match scan {} authority with
    | .error defect => some defect
    | .ok s =>
      if s.opened != s.ended || 1 < s.colons || s.atSign || s.percent then
        some "invalid authority"
      else if authority.isEmpty then some "invalid format"
      else if isLocation (rest.drop authority.length) then none
      else some "invalid uri character"

/-- The fault of every attempt to open a socket that cannot be opened. -/
def fault? (e : SocketEndpoint) : Option TransportFault :=
  e.defect?.map (fun defect => .webSocket ("HTTP format error: " ++ defect))

end SocketEndpoint

structure BrokerEndpoint where
  host : String
  port : Nat
  topicRoot : String
  edge : String
  deriving DecidableEq, Repr

namespace BrokerEndpoint

def defaultPort : Nat := 1883

/-- A port number: digits, a plus sign before them allowed, up to 65535. -/
def port? (text : List Char) : Option Nat :=
  let digits := match text with
    | '+' :: rest => rest
    | other => other
  if digits.isEmpty || digits.any (fun c => !('0' ≤ c && c ≤ '9')) then none
  else
    let port := digits.foldl (fun port c => 10 * port + (c.toNat - '0'.toNat)) 0
    if port ≤ 65535 then some port else none

/-- Host and port of a broker's address, which may begin with a scheme. -/
def hostAndPort (url : String) : Except TransportFault (String × Nat) :=
  let text := url.toList
  let rest := (afterStart "mqtt://".toList text <|> afterStart "tcp://".toList text).getD text
  if rest.isEmpty then .error (.invalidAddress "empty broker host")
  else
    match splitLast ':' rest with
    | none => .ok (String.ofList rest, defaultPort)
    | some (host, port) =>
      match port? port with
      | some port => .ok (String.ofList host, port)
      | none => .error (.invalidAddress ("Invalid port: " ++ String.ofList port))

def ofUrl (url topicRoot edge : String) : Except TransportFault BrokerEndpoint :=
  match hostAndPort url with
  | .ok (host, port) => .ok ⟨host, port, topicRoot, edge⟩
  | .error fault => .error fault

def topic (e : BrokerEndpoint) (leaf : String) : String :=
  e.topicRoot ++ "/" ++ e.edge ++ "/" ++ leaf

def requestTopic (e : BrokerEndpoint) : String := e.topic "request"

def responseTopic (e : BrokerEndpoint) : String := e.topic "response"

def currentDataTopic (e : BrokerEndpoint) : String := e.topic "currentData"

end BrokerEndpoint

end ChannelFeed
