import ChannelFeed.Endpoint
import ChannelFeed.Session.Policy

namespace ChannelFeed

inductive Access where
  | socket (url : String)
  | broker (url topicRoot : String) (credentials : Option (String × String))
  deriving DecidableEq, Repr, Inhabited

structure Config where
  edge : String
  access : Access
  policy : Policy
  /-- How long changes of interest are collected before the device is told. -/
  debounce : Duration
  /-- How long a device may be silent. -/
  idle : Option Duration
  /-- How many snapshots may wait to be applied. -/
  buffer : Nat
  /-- The last instant that the machine's clock can tell, in milliseconds since it started. -/
  lastInstant : Nat
  deriving DecidableEq, Inhabited

namespace Config

/-- The last instant of a clock that counts seconds with 63 bits. How many of them are left depends on
how long the machine has been running; that a million are gone is a choice. -/
def usualLastInstant : Nat := 9223372036853775808000

def ofAccess (edge : String) (access : Access) : Config :=
  ⟨edge, access, .standard, .ofMillis 100, some (.ofSeconds 30), 16, usualLastInstant⟩

def socket (edge url : String) : Config := ofAccess edge (.socket url)

def broker (edge url : String) : Config := ofAccess edge (.broker url "edge" none)

/-- Credentials are for brokers only. -/
def withCredentials (c : Config) (user password : String) : Config :=
  match c.access with
  | .broker url root _ => { c with access := .broker url root (some (user, password)) }
  | .socket _ => c

/-- Topics are for brokers only. -/
def withTopicRoot (c : Config) (root : String) : Config :=
  match c.access with
  | .broker url _ credentials => { c with access := .broker url root credentials }
  | .socket _ => c

/-- At least one snapshot may wait. -/
def withBuffer (c : Config) (buffer : Nat) : Config := { c with buffer := max buffer 1 }

def isSocket (c : Config) : Bool :=
  match c.access with
  | .socket _ => true
  | .broker _ _ _ => false

def isBroker (c : Config) : Bool := !c.isSocket

end Config

end ChannelFeed
