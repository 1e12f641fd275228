import SiteProfiler.Text

/-!
# Trace buffers

A trace is written over storage that the caller supplies.  What does not fit is dropped, and the
buffer remembers that something was.
-/

namespace SiteProfiler

/-- Storage that is written from the front: the bytes written so far, the bytes not yet written
over, and whether any output was dropped. -/
structure TraceBuffer where
  front : List UInt8
  back : List UInt8
  truncated : Bool
deriving DecidableEq, Repr

namespace TraceBuffer

def ofStorage (storage : List UInt8) : TraceBuffer := ⟨[], storage, false⟩

/-- Write as many of the bytes as there is room for. -/
def push (out : TraceBuffer) (bytes : List UInt8) : TraceBuffer where
  front := out.front ++ bytes.take out.back.length
  back := out.back.drop bytes.length
  truncated := out.truncated || decide (out.back.length < bytes.length)

def pushText (out : TraceBuffer) (text : String) : TraceBuffer := out.push (textBytes text)

/-- Number of bytes written. -/
def written (out : TraceBuffer) : Nat := out.front.length

def isFull (out : TraceBuffer) : Bool := out.back.isEmpty

/-- The storage as it is now. -/
def storage (out : TraceBuffer) : List UInt8 := out.front ++ out.back

end TraceBuffer

end SiteProfiler
