import HostapdGrpc.Go.Strings

/-!
# Station replies

The parser of `service.go` for the reply that describes one station: its address on the
first line, then lines `key=value`.
-/

namespace HostapdGrpc.Server

open Go

/-- The message `Client` -/
structure Client where
  addr : GoString
  flag : List GoString
  connectedTime : UInt32
  idleMsec : UInt32
  rxPackets : UInt32
  txPackets : UInt32
  rxBytes : UInt32
  txBytes : UInt32
  socketName : GoString
  deriving DecidableEq

def Client.empty : Client := ⟨[], [], 0, 0, 0, 0, 0, 0, []⟩

/-- `flagsRe.FindAllStringSubmatch(v, -1)`, the first submatch of each match: a text in
brackets, not empty and without `]`. `inside` is what follows the bracket that is open. -/
def findFlags (inside : Option GoString) : GoString → List GoString
  | [] => []
  | b :: rest =>
    match inside with
    | none => findFlags (if b = 91 then some [] else none) rest
    | some flag =>
      if b = 93 then
        if flag = [] then findFlags none rest else flag :: findFlags none rest
      else
        findFlags (some (flag ++ [b])) rest

/-- A text that is no number of 32 bits counts as 0. -/
def parseUint32 (s : GoString) : UInt32 := UInt32.ofNat ((parseUint s 32).getD 0)

def parseCliKV (k v : GoString) (cli : Client) : Client :=
  let key := toLower (trimSpace k)
  let n := parseUint32 (trimSpace v)
  if key = lit "flags" then { cli with flag := cli.flag ++ findFlags none v }
  else if key = lit "connected_time" then { cli with connectedTime := n }
  else if key = lit "idle_msec" then { cli with idleMsec := n }
  else if key = lit "rx_packets" then { cli with rxPackets := n }
  else if key = lit "tx_packets" then { cli with txPackets := n }
  else if key = lit "rx_bytes" then { cli with rxBytes := n }
  else if key = lit "tx_bytes" then { cli with txBytes := n }
  else cli

/-- One line after the address; a line without `=` is skipped. -/
def parseLine (cli : Client) (line : GoString) : Client :=
  match splitEquals line with
  | some (k, v) => parseCliKV k v cli
  | none => cli

def parseCli (tok : GoString) : Client :=
  match scanLines tok with
  | [] => .empty
  | addr :: rest => rest.foldl parseLine { Client.empty with addr := addr }

private theorem parseCliKV_addr (k v : GoString) (cli : Client) :
    (parseCliKV k v cli).addr = cli.addr := by
  unfold parseCliKV
  simp only
  split_ifs <;> rfl

private theorem parseLine_addr (cli : Client) (line : GoString) :
    (parseLine cli line).addr = cli.addr := by
  unfold parseLine
  split
  · exact parseCliKV_addr _ _ cli
  · rfl

/-- The address is the first line: no later line touches it. -/
theorem parseCli_addr (tok : GoString) : (parseCli tok).addr = (scanLines tok).headD [] := by
  unfold parseCli
  cases scanLines tok with
  | nil => rfl
  | cons addr rest =>
    have kept : ∀ cli : Client, (rest.foldl parseLine cli).addr = cli.addr := by
      induction rest with
      | nil => exact fun _ => rfl
      | cons line rest ih =>
        intro cli
        exact (ih (parseLine cli line)).trans (parseLine_addr cli line)
    exact kept { Client.empty with addr := addr }

end HostapdGrpc.Server
