/-!
# The usage text

What the program prints when it is asked for help or cannot read its arguments.
-/

namespace TickGate
namespace CommandLine

/-- The usage text, line by line. -/
def usageLines : List String :=
  [
    "Usage: trigger-demo <command> [options]",
    "",
    "Commands:",
    "  run [options]  Simulate the range-trigger scenario and print gated records",
    "",
    "Options:",
    "  --start <tick>       First enabled tick (default: 100)",
    "  --end <tick>         Last enabled tick (default: 1000)",
    "  --cycles <count>     Ticks to simulate from tick 0 (default: 1200)",
    "  --seed <value>       LFSR seed, decimal or 0x-prefixed (default: 0xACE1)",
    "  --policy <policy>    Sink combine policy: and, or, level (default: level)",
    "  --pulse              Publish a one-tick pulse when the window opens",
    "  --unwired            Leave the sink without a source",
    "  --fallback           Decide true for silent sources",
    "  -o, --output <file>  Write records to a file instead of stdout",
    "  -h, --help           Show this help message",
    "",
    "Logging goes to stderr and is filtered by RUST_LOG (default: warn).",
    "",
    "Examples:",
    "  trigger-demo run",
    "  trigger-demo run --start 10 --end 20 --cycles 40",
    "  trigger-demo run --pulse -o trace.log"
  ]

/-- The usage text. -/
def usage : String := String.join (usageLines.map (· ++ "\n"))

end CommandLine
end TickGate
