import Mathlib.Tactic.Common

/-! The check of a TCP endpoint, over the addresses it resolves to. What the
system answers to the calls on an address is given with the address, and the
calls that are made are kept in their order. -/

namespace NetworkDiscovery.SocketUtil

def EINPROGRESS : Int32 := 115
def O_NONBLOCK : Int32 := 0x800

/-- A resolved address with the answers to the calls on it. `soError` is what
`sock_error` holds after `getsockopt`, and `established` tells whether the
connection came to stand while the check ran. -/
structure Address where
  sockfd : Int32
  flags : Int32
  connected : Int32
  errno : Int32
  selected : Int32
  soError : Int32
  established : Bool
  deriving DecidableEq, Repr

inductive SysCall
  | getaddrinfo (host port : String)
  | socket (fd : Int32)
  | getFlags (fd : Int32)
  | setFlags (fd flags : Int32)
  | connect (fd : Int32)
  | select (fd seconds microseconds : Int32)
  | getsockopt (fd error : Int32)
  | close (fd : Int32)
  | freeaddrinfo
  deriving DecidableEq, Repr

abbrev Sys := StateM (List SysCall)

def sys (call : SysCall) : Sys Unit := modify fun calls => calls ++ [call]

/-- Every failure of an address closes its descriptor and continues with the next one. -/
def giveUp (p : Address) : Sys Bool := do
  sys (.close p.sockfd)
  return false

/-- Check if socket is connected. -/
def checkError (p : Address) : Sys Bool := do
  sys (.getsockopt p.sockfd p.soError)
  if p.soError ≠ 0 then giveUp p
  else
    sys (.close p.sockfd)
    return true

/-- Use `select` to wait for connection or timeout, if a timeout is given. -/
def awaitConnection (timeoutMs : Int32) (p : Address) : Sys Bool :=
  if 0 ≤ timeoutMs then do
    sys (.select p.sockfd (timeoutMs / 1000) (timeoutMs % 1000 * 1000))
    if p.selected ≤ 0 then giveUp p else checkError p
  else checkError p

def tryAddress (timeoutMs : Int32) (p : Address) : Sys Bool := do
  sys (.socket p.sockfd)
  if p.sockfd < 0 then return false
  else
    sys (.getFlags p.sockfd)
    sys (.setFlags p.sockfd (p.flags ||| O_NONBLOCK))
    sys (.connect p.sockfd)
    if p.connected < 0 ∧ p.errno ≠ EINPROGRESS then giveUp p
    else awaitConnection timeoutMs p

def tryAddresses (timeoutMs : Int32) : List Address → Sys Bool
  | [] => return false
  | p :: rest => do
    if ← tryAddress timeoutMs p then return true
    else tryAddresses timeoutMs rest

/-- Without a list of addresses the host could not be resolved. -/
def checkTCPEndpoint (host : String) (port : Int32) (resolved : Option (List Address))
    (timeoutMs : Int32 := 1000) : Sys Bool := do
  sys (.getaddrinfo host (toString port))
  match resolved with
  | none => return false
  | some addresses =>
    let connected ← tryAddresses timeoutMs addresses
    sys .freeaddrinfo
    return connected

end NetworkDiscovery.SocketUtil
