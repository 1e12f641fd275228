import SiteProfiler.Outcome
import SiteProfiler.Site.CallStack
import SiteProfiler.Trace.Buffer

/-!
# Frame formatters

A formatter writes the frames of a stack to a trace buffer.  It must not assume room for all it
writes, and it may fail, keeping what it has written.
-/

namespace SiteProfiler

abbrev Formatter := CallStack → TraceBuffer → Outcome Unit × TraceBuffer

namespace TraceBuffer

/-- Write a text for each address, until the buffer is full. -/
def pushFrames (line : Address → String) : List Address → TraceBuffer → TraceBuffer
  | [], out => out
  | pc :: rest, out => if out.isFull then out else pushFrames line rest (out.pushText (line pc))

end TraceBuffer

/-- An address on a line of its own, after a tab. -/
def rawLine (pc : Address) : String := "\t" ++ addressText pc ++ "\n"

/-- Two lines for an address without debug information. -/
def unresolvedLine (pc : Address) : String := "<unknown>\n\tpc=" ++ addressText pc ++ "\n"

namespace Formatter

/-- One hexadecimal address to a line. -/
def raw : Formatter := fun stack out => (.returned (), out.pushFrames rawLine stack.frames)

/-- Names the code at each address; none of the addresses has debug information. -/
def symbols : Formatter := fun stack out =>
  (.returned (), out.pushFrames unresolvedLine stack.frames)

/-- Writes a text that depends on the stack alone. -/
def ofText (text : CallStack → String) : Formatter := fun stack out =>
  (.returned (), out.pushText (text stack))

/-- Writes a line with the number of frames and none of the frames. -/
def counting : Formatter := ofText fun stack =>
  "\t#" ++ natText stack.depth ++ "\n"

/-- Fails without writing anything. -/
def failing : Formatter := fun _ out => (.unwound, out)

end Formatter

end SiteProfiler
