-- SUMMARY: What an ok of Push stands for: its requests have all been accepted, but neither its receives nor its completions need to be fine.
import KRCore.VirtualQueue.BindAccounting

/-!
# The status of a Push

A Push overwrites the status of its receives with that of its first batch, and it
looks at whether a completion came but not at the status that the completion
carries. So its ok says that the requests of the list have been accepted, and not
more.
-/

namespace Ioctl

end Ioctl
