import Roster.Arguments
import Roster.Host
import Roster.Simulation

/-!
# The command line

This is the program `agent-host`.  The program reads its arguments and its
options, starts a host on a link of its own, lets it host agents and join
through seeds, and tells what the host announces by then.
-/

namespace Roster.Program

def usage : String :=
  "Usage: agent-host [--config FILE] [--addr IP] [--port PORT] [--env NAME] " ++
    "[--seed ADDRESS]... [--host-agent AGENT]... [--verbose]"

def refusalText (refusal : Arguments.Refusal) : String :=
  match refusal.cause.message? with
  | some cause => refusal.message ++ ": " ++ cause
  | none => refusal.message

def commands (arguments : Arguments) : List Command :=
  (if arguments.seeds.isEmpty then [] else [.join arguments.seeds]) ++
    arguments.agents.map .host

def memberLine (member : Endpoint) (tags : Tags) : String :=
  "  " ++ member.key ++ " " ++ tags.toText

def agentLine (agent : String) (hosts : SortedSet Endpoint) : String :=
  "Agent " ++ agent ++ " hosted on " ++
    String.intercalate ", " (hosts.keys.map Endpoint.key)

def announcement (host : Host) : List String :=
  let members := host.node.members.value
  ["Environment: " ++ host.node.options.env,
    "Local endpoint: " ++ host.node.own.key,
    "Membership (" ++ toString members.size ++ "):"] ++
    members.entries.map (fun (member, tags) => memberLine member tags) ++
    host.node.landscape.value.entries.map fun (agent, hosts) => agentLine agent hosts

/-- Start a host and carry out commands: what it announces after that. -/
def run (options : Options) (commands : List Command) (incarnation seed : UInt64) :
    Except String (List String) := do
  let address ← options.bindAddress.mapError fun fault => fault.message?.getD ""
  match Host.start options { address } ⟨seed⟩ incarnation (Chance.ofSeed seed) with
  | .error overflow => throw overflow.message
  | .ok (.error (fault, _)) => throw (fault.message?.getD "")
  | .ok (.ok host) =>
      let timeline :=
        commands.foldl (fun timeline command => (timeline.call incarnation command).2)
          (Timeline.new incarnation host)
      return announcement timeline.host

end Roster.Program

open Roster in
/-- The program answers zero, one if there are no valid options, or two if the
arguments are refused. -/
def main (arguments : List String) : IO UInt32 := do
  match Arguments.parse arguments with
  | .error .helpWanted =>
      IO.println Program.usage
      return 0
  | .error fault =>
      IO.eprintln ("error: " ++ fault.message)
      IO.eprintln Program.usage
      return 2
  | .ok parsed =>
      let content ←
        match parsed.config with
        | none => pure none
        | some path =>
            try
              pure (some (← IO.FS.readBinFile path).toList)
            catch _ => pure none
      match parsed.options fun _ => content with
      | .error refusal =>
          IO.eprintln ("Error: " ++ Program.refusalText refusal)
          return 1
      | .ok options =>
          let clock := UInt64.ofNat (← IO.monoMsNow)
          let seed := UInt64.ofNat (← IO.rand 1 (1 <<< 62))
          match Program.run options (Program.commands parsed) clock seed with
          | .error message =>
              IO.eprintln ("Error: " ++ message)
              return 1
          | .ok lines =>
              lines.forM IO.println
              return 0
