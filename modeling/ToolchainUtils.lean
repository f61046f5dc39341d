import ToolchainUtils.AfdoProfAnalysis.Profile
import ToolchainUtils.AfdoProfAnalysis.RangeSearch
import ToolchainUtils.AfdoProfAnalysis.Bisect
import ToolchainUtils.AfdoProfAnalysis.Monotone
import ToolchainUtils.AfdoProfAnalysis.Main
import ToolchainUtils.V14.LockMachine
import ToolchainUtils.V14.JobGroupManager
import ToolchainUtils.Crosperf.BenchmarkRun
import ToolchainUtils.Crosperf.SuiteRunner
import ToolchainUtils.LlvmTools.LlvmBisection
import ToolchainUtils.LlvmTools.NightlyRevertChecker
import ToolchainUtils.Utils.CommandExecuter
import ToolchainUtils.ImageChromeos
import ToolchainUtils.Utils.RunCommand
import ToolchainUtils.RustTools.RustVersion
import ToolchainUtils.RustTools.RustUprev
import ToolchainUtils.RustTools.CreateUprev
import ToolchainUtils.RustTools.PackageProvided
import ToolchainUtils.RustTools.Chroot
import ToolchainUtils.RustTools.BootstrapEbuild
