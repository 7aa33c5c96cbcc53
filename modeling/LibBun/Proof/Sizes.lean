import LibBun.Proof.Writer
import LibBun.Proof.Stream

/-!
# Which sizes of a buffer are safe

A `struct bun_buffer` can be filled in by hand, with any size. Three functions look
at that size, and each in its own way. `bun_buffer_payload_size` takes the sixteen
bytes of the prefix off and does not ask whether there are sixteen.
`bun_reader_init` asks whether what comes out has room for a header.
`bun_writer_init` asks whether the whole buffer has, prefix included.

So a size below sixteen wraps, and a reader looks for the magic number in memory
that is not there; and a size from twenty-four up to thirty-nine lets a writer
through to store a header that ends beyond the memory. All others are safe, because
the two functions refuse them or because there is room for everything.
-/

namespace LibBun

variable {h : Host}

variable {buf : BunBuffer h}

end LibBun
